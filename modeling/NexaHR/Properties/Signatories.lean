import NexaHR.System.RecordRuns
import NexaHR.System.Installation

/-! # Who signed

The final document is signed in the names of those who sit on the record when it is finalized. They
are the ones who did the work of their stages, in the last pass through them, as long as nobody was
given a seat whose stage the record had behind it.

* `Stage`, `Shape.stages`, `Shape.seatOf`: the stages of a shape and the seats they belong to.
* `performerOf`: who performed a stage in a step; `last` of it is the last pass.
* `Signed`: at every stage that is behind a record, the seat's occupant performed it last.
* `faithfully_signed`: the result.
-/

namespace NexaHR

open Foundations

set_option autoImplicit false

/-! ## Stages -/

inductive Stage
  | scoring | hrReview | deputyReview | final
  deriving DecidableEq, Repr

namespace Stage

def all : List Stage := [scoring, hrReview, deputyReview, final]

theorem mem_all (stage : Stage) : stage ∈ all := by
  cases stage <;> simp [all]

/-- The actions by which the stage is performed. -/
def includes : Stage → Action → Bool
  | scoring, a => a.isSubmit
  | hrReview, a => a.isHrApproval
  | deputyReview, a => a = .deputyApprove
  | final, a => a = .ceoFinalize

end Stage

namespace Shape

def seatOf (s : Shape) : Stage → SeatField
  | .scoring => .chain s.scorer
  | .hrReview => .hr
  | .deputyReview => .chain .deputy
  | .final => .chain .ceo

/-- The stages that a record of the shape goes through. On the chief executive's own chain the
approval of HR is the final one, and a deputy who scores does not review. -/
def stages (s : Shape) : List Stage :=
  [.scoring] ++ (if s.hrReviewSkipped then [] else [.hrReview]) ++
    (if s.hasSupervisor && s.hasDeputy then [.deputyReview] else []) ++
    (if s.isCeoOnly && !s.hrReviewSkipped then [] else [.final])

/-- At these statuses a record has the stage behind it. -/
def behind : Stage → List EvaluationStatus
  | .scoring => [.submitted, .hrApproved, .deputyApproved, .finalized]
  | .hrReview => [.hrApproved, .deputyApproved, .finalized]
  | .deputyReview => [.deputyApproved, .finalized]
  | .final => [.finalized]

def passed (s : Shape) (status : EvaluationStatus) (stage : Stage) : Bool :=
  stage ∈ s.stages && status ∈ behind stage

theorem passed_draft (s : Shape) (stage : Stage) : s.passed .draft stage = false := by
  cases stage <;> simp [passed, behind]

theorem passed_finalized {s : Shape} {stage : Stage} (h : stage ∈ s.stages) :
    s.passed .finalized stage = true := by
  cases stage <;> simp [passed, behind, h]

/-- A stage gets behind a record by being performed. -/
theorem passed_cases {s : Shape} {status : EvaluationStatus} {a : Action} {stage : Stage}
    (h : s.enabled status a = true) (hpassed : s.passed (transitions a).toStatus stage = true) :
    stage.includes a = true ∨ s.passed status stage = true := by
  have hrow := forall_enabled
    (P := fun s status a => ∀ stage ∈ Stage.all, s.passed (transitions a).toStatus stage = true →
      stage.includes a = true ∨ s.passed status stage = true)
    (by decide) h
  exact hrow stage stage.mem_all hpassed

/-- A stage is performed from the seat it belongs to. -/
theorem assigneeField_eq_seatOf {s : Shape} {status : EvaluationStatus} {a : Action} {stage : Stage}
    (h : s.enabled status a = true) (hstage : stage.includes a = true) :
    (transitions a).assigneeField = some (s.seatOf stage) := by
  have hrow := forall_enabled
    (P := fun s _ a => ∀ stage ∈ Stage.all, stage.includes a = true →
      (transitions a).assigneeField = some (s.seatOf stage))
    (by decide) h
  exact hrow stage stage.mem_all hstage

end Shape

/-! ## Performing and signing -/

/-- Who performed the stage on the record in the step. -/
def performerOf (k : Nat) (stage : Stage) (x : Taken Database Request) : Option Nat :=
  (performedOn x.before x.label k).bind fun a => if stage.includes a then some x.label.userId else none

/-- At every stage that is behind the record, the occupant of its seat performed it last. -/
def Signed (k : Nat) (tr : List (Taken Database Request)) (r : EvaluationRecord) : Prop :=
  ∀ stage, r.shape.passed r.status stage = true → ∃ userId,
    r.seat (r.shape.seatOf stage) = some userId ∧ last (performerOf k stage) tr = some userId

/-- The seat that the request gives away, and to whom. -/
def RecordOperation.gives : RecordOperation → Option (SeatField × Nat)
  | hrHandover newHrUserId _ => some (.hr, newHrUserId)
  | reassignStageOwner stageField newUserId _ => some (.chain stageField, newUserId)
  | _ => none

def Operation.gives : Operation → Option (SeatField × Nat)
  | onRecord _ op => op.gives
  | _ => none

/-- The request gives nobody the seat of a stage that the record has behind it. -/
def KeepsPassedSeats (db : Database) (req : Request) : Prop :=
  ∀ k op field newUserId r, req.operation = .onRecord k op → op.gives = some (field, newUserId) →
    db.evaluationRecords.get? k = some r → r.seat field ≠ some newUserId →
    ∀ stage, r.shape.passed r.status stage = true → r.shape.seatOf stage ≠ field

section

variable {db db' : Database} {req : Request} {user : CurrentUser} {r r' : EvaluationRecord}
  {k : Nat} {tr : List (Taken Database Request)}

/-! ### One change of the record -/

/-- The seat of a transition is filled by its user when it was taken. -/
theorem claimedFor_seat {a : Action} {field : SeatField} (hblock : transitionBlock r a user = none)
    (hfield : (transitions a).assigneeField = some field) :
    (r.claimedFor a user).seat field = some user.id := by
  have hadmits := (transitionBlock_eq_none.mp hblock).2.2.2
  cases field with
  | chain s =>
    have hclaim : (transitions a).claimableIfUnassigned = false := by
      cases a <;> first | rfl | cases hfield
    rw [Transition.admits_iff_of_not_claimable hfield hclaim] at hadmits
    rw [EvaluationRecord.seat_chain, (claimedFor_keeps r a user).2.2.2]
    exact hadmits
  | hr =>
    have hclaim : (transitions a).claimableIfUnassigned = true := by
      cases a <;> first | rfl | cases hfield
    unfold Transition.admits at hadmits
    rw [hfield] at hadmits
    unfold EvaluationRecord.claimedFor Transition.claims
    rw [hfield, hclaim]
    cases hhr : r.hrUserId with
    | none => rfl
    | some owner =>
      simp only [EvaluationRecord.seat_hr, hhr, Option.isNone_some, Bool.and_false] at hadmits ⊢
      simpa [hhr] using hadmits

theorem Change.seat_taken {a : Action} {field : SeatField} (h : Change db req user r (some a) r')
    (hfield : (transitions a).assigneeField = some field) : r'.seat field = some user.id := by
  cases h with
  | moved _ hallowed _ _ before hbefore =>
    have hseat := claimedFor_seat hallowed hfield
    have hkeeps := hbefore.keeps
    cases field with
    | chain s =>
      show before.chain.seat s = some user.id
      rw [hkeeps.2.2.2.1]
      exact hseat
    | hr =>
      show before.hrUserId = some user.id
      rw [hkeeps.2.2.2.2]
      exact hseat

/-- A transition moves nobody from his seat. -/
theorem Change.seat_some {a : Action} {field : SeatField} {u : Nat}
    (h : Change db req user r (some a) r') (hseat : r.seat field = some u) :
    r'.seat field = some u := by
  cases field with
  | chain s =>
    rw [EvaluationRecord.seat_chain] at hseat ⊢
    rw [h.chain_eq]
    exact hseat
  | hr =>
    cases h with
    | moved _ _ _ _ before hbefore =>
      have hhr : r.hrUserId = some u := hseat
      have hclaims : (transitions a).claims r = false := by
        unfold Transition.claims
        rw [hhr, Option.isNone_some, Bool.and_false]
      show before.hrUserId = some u
      rw [hbefore.keeps.2.2.2.2]
      unfold EvaluationRecord.claimedFor
      rw [hclaims]
      exact hhr

/-- Beside the transitions, a filled seat changes its occupant only when it is given away. -/
theorem Change.seat_none {field : SeatField} {u : Nat} (h : Change db req user r none r')
    (hseat : r.seat field = some u) :
    r'.seat field = some u ∨ ∃ op newUserId, req.operation = .onRecord r.id op ∧
      op.gives = some (field, newUserId) ∧ r'.seat field = some newUserId := by
  cases h with
  | claimed hopen hunowned =>
    cases field with
    | chain s => exact Or.inl hseat
    | hr =>
      have hhr : r.hrUserId = some u := hseat
      rw [hunowned] at hhr
      cases hhr
  | handedOver hopen hself owner reason hop =>
    cases field with
    | chain s => exact Or.inl hseat
    | hr => exact Or.inr ⟨_, owner.id, hop, rfl, rfl⟩
  | reassigned hopen hself s hfilled owner reason hop howner hactive hrole hother chain hchain hrest =>
    cases field with
    | hr => exact Or.inl hseat
    | chain t =>
      by_cases hst : t = s
      · right
        subst hst
        exact ⟨_, owner.id, hop, rfl, hchain⟩
      · left
        show chain.seat t = some u
        rw [hrest t hst]
        exact hseat
  | _ => exact Or.inl hseat

/-! ### One step -/

theorem signed_step (hstep : Steps db req db') (hkeeps : KeepsPassedSeats db req)
    (hget : db.evaluationRecords.get? k = some r) (hget' : db'.evaluationRecords.get? k = some r')
    (hsigned : Signed k tr r) : Signed k (⟨db, req, db'⟩ :: tr) r' := by
  obtain ⟨user, r₁, huser, hr₁, hchange⟩ := step_record hstep hget
  rw [hget'] at hr₁
  cases hr₁
  have hid : r.id = k := Table.id_of_get? hget
  intro stage hpassed
  rw [hchange.shape_eq] at hpassed ⊢
  cases hperformed : performedOn db req k with
  | none =>
    rw [hperformed] at hchange
    have hquiet : performerOf k stage ⟨db, req, db'⟩ = none := by
      show (performedOn db req k).bind _ = none
      rw [hperformed]
      rfl
    rw [hchange.status_none] at hpassed
    obtain ⟨u, hseat, hlast⟩ := hsigned stage hpassed
    refine ⟨u, ?_, by rw [last_cons_none hquiet, hlast]⟩
    rcases hchange.seat_none hseat with hkept | ⟨op, newUserId, hop, hgives, hnew⟩
    · exact hkept
    · -- the seat was given away, so it went to the user who had it
      rw [hid] at hop
      by_cases hsame : r.seat (r.shape.seatOf stage) = some newUserId
      · rw [hnew, ← hsame]
        exact hseat
      · exact absurd rfl (hkeeps k op _ newUserId r hop hgives hget hsame stage hpassed)
  | some a =>
    rw [hperformed] at hchange
    obtain ⟨hblock, hs⟩ := hchange.status_some
    have henabled := enabled_of_available hblock
    rw [hs] at hpassed
    by_cases hincludes : stage.includes a = true
    · have hperformer : performerOf k stage ⟨db, req, db'⟩ = some req.userId := by
        show (performedOn db req k).bind _ = some req.userId
        rw [hperformed, Option.bind_some, if_pos hincludes]
      refine ⟨req.userId, ?_, last_cons_some hperformer⟩
      rw [← getCurrentUser_id huser]
      exact hchange.seat_taken (Shape.assigneeField_eq_seatOf henabled hincludes)
    · have hquiet : performerOf k stage ⟨db, req, db'⟩ = none := by
        show (performedOn db req k).bind _ = none
        rw [hperformed, Option.bind_some, if_neg hincludes]
      rcases Shape.passed_cases henabled hpassed with hnow | hbefore
      · exact absurd hnow hincludes
      · obtain ⟨u, hseat, hlast⟩ := hsigned stage hbefore
        exact ⟨u, hchange.seat_some hseat, by rw [last_cons_none hquiet, hlast]⟩

end

/-- In a run that keeps the passed seats, every record is signed as far as it has come. -/
theorem signed_of_run {tr : List (Taken Database Request)} {db : Database} (h : SystemRun tr db)
    (hkeeps : ∀ x ∈ tr, KeepsPassedSeats x.before x.label) {k : Nat} :
    ∀ r, db.evaluationRecords.get? k = some r → Signed k tr r := by
  induction h with
  | nil hinit =>
    intro r hget
    exact absurd (Table.mem_of_get? hget) (hinit.no_records r)
  | @cons tr db req db' hrun hstep ih =>
    intro r' hget'
    have hkeeps' : ∀ x ∈ tr, KeepsPassedSeats x.before x.label := fun x hx =>
      hkeeps x (List.mem_cons_of_mem _ hx)
    cases hget : db.evaluationRecords.get? k with
    | some r => exact signed_step hstep (hkeeps _ List.mem_cons_self) hget hget' (ih hkeeps' r hget)
    | none =>
      obtain ⟨access, -, -, -, code, rfl⟩ := step_opened hstep hget hget'
      intro stage hpassed
      have hdraft := Shape.passed_draft
        (newRecord (openingOf db req.env (ensureFramework db).1) access
          (subjectBelongsToHr db access.personnelId) code k).shape stage
      exact absurd hpassed (by rw [show EvaluationRecord.status _ = .draft from rfl, hdraft]; decide)

/-! ## The signature block -/

section

variable {r : EvaluationRecord}

/-- A row of the block is signed by the occupant of each of its seats, and HR signs only where it
reviews. -/
def RowOf (r : EvaluationRecord) (row : Signatory) : Prop :=
  ∀ seat ∈ row.seats, r.seat seat = row.userId ∧
    (seat = .hr → r.hrReviewSkipped = false) ∧ ∀ s, seat = .chain s → (r.chain.seat s).isSome = true

theorem addSignature_rows {rows : List Signatory} {seat : ChainSeat} {userId : Nat}
    (hrows : ∀ row ∈ rows, RowOf r row) (hseat : r.chain.seat seat = some userId) :
    ∀ row ∈ addSignature rows seat userId, RowOf r row := by
  have hown : ∀ s, SeatField.chain seat = .chain s → (r.chain.seat s).isSome = true := by
    rintro s heq
    cases heq
    rw [hseat]
    rfl
  intro row hrow
  unfold addSignature at hrow
  split at hrow
  · obtain ⟨old, hold, rfl⟩ := List.mem_map.mp hrow
    split
    next hsame =>
      rw [Bool.and_eq_true, decide_eq_true_eq] at hsame
      intro field hfield
      rcases List.mem_append.mp hfield with hfield | hfield
      · exact hrows old hold field hfield
      · rw [List.mem_singleton.mp hfield]
        refine ⟨?_, (fun heq => by cases heq), hown⟩
        show r.chain.seat seat = old.userId
        rw [hseat, hsame.1]
    next => exact hrows old hold
  · rcases List.mem_append.mp hrow with hold | hnew
    · exact hrows row hold
    · rw [List.mem_singleton.mp hnew]
      intro field hfield
      rw [List.mem_singleton.mp hfield]
      exact ⟨hseat, (fun heq => by cases heq), hown⟩

theorem signSeat_rows {rows : List Signatory} {seat : ChainSeat} (hrows : ∀ row ∈ rows, RowOf r row) :
    ∀ row ∈ signSeat r rows seat, RowOf r row := by
  unfold signSeat
  cases hseat : r.chain.seat seat with
  | none => exact hrows
  | some userId =>
    have hsigned := addSignature_rows hrows hseat
    simp only
    split
    next hscorer =>
      rw [Bool.and_eq_true, Bool.not_eq_true'] at hscorer
      intro row hrow
      rcases List.mem_append.mp hrow with hold | hnew
      · exact hsigned row hold
      · rw [List.mem_singleton.mp hnew]
        intro field hfield
        rw [List.mem_singleton.mp hfield]
        exact ⟨rfl, (fun _ => hscorer.2), fun s heq => by cases heq⟩
    next => exact hsigned

theorem documentSignatories_rows : ∀ row ∈ documentSignatories r, RowOf r row := by
  unfold documentSignatories
  have hfold : ∀ (seats : List ChainSeat) (rows : List Signatory), (∀ row ∈ rows, RowOf r row) →
      ∀ row ∈ seats.foldl (signSeat r) rows, RowOf r row := by
    intro seats
    induction seats with
    | nil =>
      intro rows hrows
      exact hrows
    | cons seat seats ih =>
      intro rows hrows
      rw [List.foldl_cons]
      exact ih _ (signSeat_rows hrows)
  apply hfold
  simp

/-- Every printed seat is the seat of a stage. -/
theorem exists_stage_of_printed {row : Signatory} (hrow : row ∈ documentSignatories r)
    {seat : SeatField} (hseat : seat ∈ row.seats) :
    ∃ stage ∈ r.shape.stages, r.shape.seatOf stage = seat := by
  obtain ⟨-, hhr, hchain⟩ := documentSignatories_rows row hrow seat hseat
  have hall : ∀ s ∈ Shape.all,
      (s.hrReviewSkipped = false → ∃ stage ∈ s.stages, s.seatOf stage = .hr) ∧
      (s.hasSupervisor = true → ∃ stage ∈ s.stages, s.seatOf stage = .chain .unitSupervisor) ∧
      (s.hasDeputy = true → ∃ stage ∈ s.stages, s.seatOf stage = .chain .deputy) ∧
      ∃ stage ∈ s.stages, s.seatOf stage = .chain .ceo := by
    decide
  obtain ⟨hh, hs, hd, hc⟩ := hall r.shape r.shape.mem_all
  cases seat with
  | hr => exact hh (hhr rfl)
  | chain s =>
    have hfilled := hchain s rfl
    cases s with
    | unitSupervisor => exact hs hfilled
    | deputy => exact hd hfilled
    | ceo => exact hc

end

/-! ## The document -/

/-- The step finalized the record. -/
def Finalizes (k : Nat) (x : Taken Database Request) : Prop :=
  ∃ a, performedOn x.before x.label k = some a ∧ (transitions a).toStatus = .finalized

/-- The stored document carries the signature block of the record, and as its evaluator the account
that `userId` had when the record was finalized. -/
def Printed (k : Nat) (tr : List (Taken Database Request)) (r : EvaluationRecord)
    (userId : Option Nat) : Prop :=
  ∃ snapshot, r.finalSnapshot = some snapshot ∧ snapshot.signatories = documentSignatories r ∧
    ∃ x ∈ tr, Finalizes k x ∧
      snapshot.evaluator.username = (userId.bind x.before.users.get?).map User.username ∧
      snapshot.evaluator.displayName = (userId.bind x.before.users.get?).map x.before.displayName

section

variable {db db' : Database} {req : Request} {user : CurrentUser} {r r' : EvaluationRecord}
  {k : Nat} {tr : List (Taken Database Request)}

/-- Nothing that the document prints changes on a closed record. -/
theorem Change.closed (h : Change db req user r none r') (hclosed : r.isOpen = false) :
    r'.finalSnapshot = r.finalSnapshot ∧ documentSignatories r' = documentSignatories r ∧
      r'.chain = r.chain := by
  have hnot : r.isOpen ≠ true := by rw [hclosed]; decide
  cases h with
  | noted n => exact ⟨rfl, rfl, rfl⟩
  | scored => exact ⟨rfl, rfl, rfl⟩
  | rebound framework hmovable =>
    unfold EvaluationRecord.isMovable at hmovable
    rw [hclosed] at hmovable
    cases hmovable
  | claimed hopen => exact absurd hopen hnot
  | handedOver hopen => exact absurd hopen hnot
  | reassigned hopen => exact absurd hopen hnot

theorem printed_step (hstep : Steps db req db') (hget : db.evaluationRecords.get? k = some r)
    (hget' : db'.evaluationRecords.get? k = some r') (hfinal : r'.status = .finalized)
    (hprinted : r.status = .finalized → Printed k tr r r.chain.scorer) :
    Printed k (⟨db, req, db'⟩ :: tr) r' r'.chain.scorer := by
  obtain ⟨user, r₁, huser, hr₁, hchange⟩ := step_record hstep hget
  rw [hget'] at hr₁
  cases hr₁
  cases hperformed : performedOn db req k with
  | none =>
    rw [hperformed] at hchange
    have hwas : r.status = .finalized := by rw [← hchange.status_none, hfinal]
    have hclosed : r.isOpen = false := by
      unfold EvaluationRecord.isOpen
      rw [hwas]
      rfl
    obtain ⟨hsnapshot, hblock, hchain⟩ := hchange.closed hclosed
    obtain ⟨snapshot, hsome, hsigned, x, hx, hrest⟩ := hprinted hwas
    refine ⟨snapshot, ?_, ?_, x, List.mem_cons_of_mem _ hx, ?_⟩
    · rw [hsnapshot, hsome]
    · rw [hblock, hsigned]
    · rw [hchain]
      exact hrest
  | some a =>
    rw [hperformed] at hchange
    have hto : (transitions a).toStatus = .finalized := by rw [← hchange.status_some.2, hfinal]
    cases hchange with
    | moved _ hallowed _ _ before hbefore =>
      cases hbefore with
      | plain _ hne => exact absurd hto hne
      | scored hsubmit => exact absurd hto (submit_not_finalized hsubmit).1
      | stamped _ snapshot hsnapshot =>
        obtain ⟨hblock, husername, hname⟩ := buildFinalSnapshot_ok hsnapshot
        refine ⟨snapshot, rfl, hblock, ⟨db, req, db'⟩, List.mem_cons_self, ⟨a, hperformed, hto⟩, ?_, ?_⟩
        · exact husername
        · exact hname

end

theorem printed_of_run {tr : List (Taken Database Request)} {db : Database} (h : SystemRun tr db)
    {k : Nat} : ∀ r, db.evaluationRecords.get? k = some r → r.status = .finalized →
      Printed k tr r r.chain.scorer := by
  induction h with
  | nil hinit =>
    intro r hget
    exact absurd (Table.mem_of_get? hget) (hinit.no_records r)
  | @cons tr db req db' hrun hstep ih =>
    intro r' hget' hfinal
    cases hget : db.evaluationRecords.get? k with
    | some r => exact printed_step hstep hget hget' hfinal (ih r hget)
    | none =>
      obtain ⟨access, -, -, -, code, rfl⟩ := step_opened hstep hget hget'
      cases hfinal

/-! ## The result -/

/-- Whoever the block names for a seat performed each stage of the seat in the last pass, and the
evaluator that the document names is the one who scored last. -/
structure FaithfullySigned (k : Nat) (tr : List (Taken Database Request)) (r : EvaluationRecord) :
    Prop where
  printed_seats : ∀ row ∈ documentSignatories r, ∀ seat ∈ row.seats,
    ∃ stage ∈ r.shape.stages, r.shape.seatOf stage = seat
  signatories : ∀ row ∈ documentSignatories r, ∀ seat ∈ row.seats, ∀ stage ∈ r.shape.stages,
    r.shape.seatOf stage = seat → ∃ userId, row.userId = some userId ∧
      last (performerOf k stage) tr = some userId
  document : Printed k tr r (last (performerOf k .scoring) tr)

/-- In a run that gives nobody the seat of a stage that a record has behind it, every finalized record
is signed by those who did the work. -/
theorem faithfully_signed {tr : List (Taken Database Request)} {db : Database} (h : SystemRun tr db)
    (hkeeps : ∀ x ∈ tr, KeepsPassedSeats x.before x.label) {k : Nat} {r : EvaluationRecord}
    (hget : db.evaluationRecords.get? k = some r) (hfinal : r.status = .finalized) :
    FaithfullySigned k tr r := by
  have hsigned := signed_of_run h hkeeps r hget
  have hpassed : ∀ stage ∈ r.shape.stages, r.shape.passed r.status stage = true := by
    intro stage hstage
    rw [hfinal]
    exact Shape.passed_finalized hstage
  refine ⟨fun row hrow seat hseat => exists_stage_of_printed hrow hseat, ?_, ?_⟩
  · intro row hrow seat hseat stage hstage hof
    obtain ⟨userId, hoccupant, hlast⟩ := hsigned stage (hpassed stage hstage)
    rw [hof] at hoccupant
    have hrowOf := (documentSignatories_rows row hrow seat hseat).1
    exact ⟨userId, by rw [← hrowOf, hoccupant], hlast⟩
  · have hscoring : Stage.scoring ∈ r.shape.stages := by simp [Shape.stages]
    obtain ⟨userId, hoccupant, hlast⟩ := hsigned .scoring (hpassed _ hscoring)
    have hscorer : r.chain.scorer = some userId := hoccupant
    rw [hlast, ← hscorer]
    exact printed_of_run h r hget hfinal

theorem finalizedByAll_signed :
    ∃ r ∈ (endState settled (office fullChain) finalizedByAll).evaluationRecords,
      FaithfullySigned 1 (replay settled (office fullChain) finalizedByAll) r := by
  have hgives : ((replay settled (office fullChain) finalizedByAll).all fun x =>
      x.label.operation.gives.isNone) = true := by
    decide
  have hkeeps : ∀ x ∈ replay settled (office fullChain) finalizedByAll,
      KeepsPassedSeats x.before x.label := by
    intro x hx k op field newUserId r hop hgiven
    have hnone := List.all_eq_true.mp hgives x hx
    have hgave : x.label.operation.gives = some (field, newUserId) := by
      rw [hop]
      exact hgiven
    rw [hgave] at hnone
    cases hnone
  obtain ⟨r, hget, hr⟩ := exists_of_any
    (o := (endState settled (office fullChain) finalizedByAll).evaluationRecords.get? 1)
    (p := fun r => r.status = .finalized)
    (by decide)
  rw [decide_eq_true_eq] at hr
  exact ⟨r, Table.mem_of_get? hget, faithfully_signed finalizedByAll_run hkeeps hget hr⟩

/-- HR approves, and then the record is handed over to another user of HR. -/
def handedOverAfterApproval : List Request :=
  [ask 3 (.onRecord 1 .ceoFinalize), ask 2 (.onRecord 1 .deputyApprove),
    ask 4 (.onRecord 1 (.hrHandover 5 "-")), ask 4 (.onRecord 1 .hrApprove)] ++ submittedBy 1

theorem signed_by_another :
    ∃ tr db, SystemRun tr db ∧ ∃ r ∈ db.evaluationRecords, r.status = .finalized ∧
      (∃ row ∈ documentSignatories r, .hr ∈ row.seats ∧ row.userId = some 5) ∧
      last (performerOf 1 .hrReview) tr = some 4 := by
  refine ⟨replay settled (office fullChain) handedOverAfterApproval,
    endState settled (office fullChain) handedOverAfterApproval,
    systemRun_replay (office_initial (by decide)) (by decide), ?_⟩
  obtain ⟨r, hget, hr⟩ := exists_of_any
    (o := (endState settled (office fullChain) handedOverAfterApproval).evaluationRecords.get? 1)
    (p := fun r => r.status = .finalized &&
      (documentSignatories r).any fun row => decide (.hr ∈ row.seats) && row.userId = some 5)
    (by decide)
  rw [Bool.and_eq_true, decide_eq_true_eq, List.any_eq_true] at hr
  obtain ⟨hfinal, row, hrow, hsigned⟩ := hr
  rw [Bool.and_eq_true, decide_eq_true_eq, decide_eq_true_eq] at hsigned
  exact ⟨r, Table.mem_of_get? hget, hfinal, ⟨row, hrow, hsigned⟩, by decide⟩

end NexaHR
