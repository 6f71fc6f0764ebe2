import NexaHR.System.Effects
import NexaHR.Workflow.Desks

/-! # Steps of the records

What one request means for a record that exists, and for one that does not yet.

* `Change.shape_eq`, `Change.status_eq`, …: what no change touches, and where a change leaves the status.
* `step_record`: a record stays, changed in one of the ways of `Change` by the account behind the
  request.
* `step_opened`: a new record is a draft with the seats of an access row.
-/

namespace NexaHR

open Foundations

set_option autoImplicit false

/-! ## What a change keeps -/

section

variable {db : Database} {req : Request} {user : CurrentUser} {r r' : EvaluationRecord} {o : Option Action}
  {a : Action}

theorem Prepared.keeps {env : Env} {before : EvaluationRecord} (h : Prepared db env a r before) :
    before.id = r.id ∧ before.subjectPersonnelId = r.subjectPersonnelId ∧
      before.hrReviewSkipped = r.hrReviewSkipped ∧ before.chain = r.chain ∧
      before.hrUserId = r.hrUserId := by
  cases h <;> exact ⟨rfl, rfl, rfl, rfl, rfl⟩

theorem claimedFor_keeps (r : EvaluationRecord) (a : Action) (user : CurrentUser) :
    (r.claimedFor a user).id = r.id ∧
      (r.claimedFor a user).subjectPersonnelId = r.subjectPersonnelId ∧
      (r.claimedFor a user).hrReviewSkipped = r.hrReviewSkipped ∧
      (r.claimedFor a user).chain = r.chain := by
  unfold EvaluationRecord.claimedFor
  split <;> exact ⟨rfl, rfl, rfl, rfl⟩

theorem Change.id_eq (h : Change db req user r o r') : r'.id = r.id := by
  cases h with
  | moved a _ _ _ before hbefore => exact hbefore.keeps.1.trans (claimedFor_keeps r a user).1
  | _ => rfl

theorem Change.subject_eq (h : Change db req user r o r') :
    r'.subjectPersonnelId = r.subjectPersonnelId := by
  cases h with
  | moved a _ _ _ before hbefore => exact hbefore.keeps.2.1.trans (claimedFor_keeps r a user).2.1
  | _ => rfl

theorem Change.hrReviewSkipped_eq (h : Change db req user r o r') :
    r'.hrReviewSkipped = r.hrReviewSkipped := by
  cases h with
  | moved a _ _ _ before hbefore => exact hbefore.keeps.2.2.1.trans (claimedFor_keeps r a user).2.2.1
  | _ => rfl

/-- A seat of the chain changes hands only by a reassignment. -/
theorem Change.chain_eq (h : Change db req user r (some a) r') : r'.chain = r.chain := by
  cases h with
  | moved _ _ _ _ before hbefore => exact hbefore.keeps.2.2.2.1.trans (claimedFor_keeps r a user).2.2.2

/-- A filled seat stays filled and an empty one stays empty. -/
theorem Change.shape_eq (h : Change db req user r o r') : r'.shape = r.shape := by
  have hskip := h.hrReviewSkipped_eq
  cases h with
  | moved a hallowed hself hresult before hbefore =>
    have hchain := (Change.moved a hallowed hself hresult before hbefore).chain_eq
    simp only [EvaluationRecord.shape, hskip, hchain]
  | reassigned _ _ seat hfilled _ _ _ _ _ _ _ chain hseat hrest =>
    have hsome : ∀ s, (chain.seat s).isSome = (r.chain.seat s).isSome := by
      intro s
      by_cases hs : s = seat
      · rw [hs, hseat, hfilled]
        rfl
      · rw [hrest s hs]
    have hsup := hsome .unitSupervisor
    have hdep := hsome .deputy
    simp only [Chain.seat_unitSupervisor, Chain.seat_deputy] at hsup hdep
    simp only [EvaluationRecord.shape, hsup, hdep]
  | _ => rfl

/-- Only a transition changes the status, and it was open to the user. -/
theorem Change.status_eq (h : Change db req user r o r') :
    (o = none ∧ r'.status = r.status) ∨
      ∃ a, o = some a ∧ transitionBlock r a user = none ∧ r'.status = (transitions a).toStatus := by
  cases h with
  | moved a hallowed => exact Or.inr ⟨a, rfl, hallowed, rfl⟩
  | _ => exact Or.inl ⟨rfl, rfl⟩

theorem Change.status_none (h : Change db req user r none r') : r'.status = r.status := by
  rcases h.status_eq with ⟨-, hs⟩ | ⟨a, ha, -⟩
  · exact hs
  · cases ha

theorem Change.status_some (h : Change db req user r (some a) r') :
    transitionBlock r a user = none ∧ r'.status = (transitions a).toStatus := by
  rcases h.status_eq with ⟨ho, -⟩ | ⟨b, hb, hblock, hs⟩
  · cases ho
  · cases hb
    exact ⟨hblock, hs⟩

/-- Every transition starts from an open record. -/
theorem fromStatuses_open (a : Action) : ∀ status ∈ (transitions a).fromStatuses, status ∈ openStatuses := by
  cases a <;> decide

/-- Nothing reopens a record. -/
theorem Change.isOpen_of (h : Change db req user r o r') (hopen : r'.isOpen = true) :
    r.isOpen = true := by
  rcases h.status_eq with ⟨-, hs⟩ | ⟨a, -, hblock, -⟩
  · unfold EvaluationRecord.isOpen at hopen ⊢
    rw [hs] at hopen
    exact hopen
  · have hfrom := (transitionBlock_eq_none.mp hblock).1
    exact decide_eq_true (fromStatuses_open a r.status hfrom)

/-- A record on its route moves along it. -/
theorem Change.moves (h : Change db req user r o r') (hdesk : r.status ∈ r.shape.route.desks) :
    r.shape.route.Moves r.status r'.status := by
  rcases h.status_eq with ⟨-, hs⟩ | ⟨a, -, hblock, hs⟩
  · exact Or.inl hs
  · rw [hs]
    exact moves_of_available hdesk hblock

/-- What the scorer entered, the rules it was entered under, and its result. -/
structure ScoredForm where
  scores : List EvaluationScore
  bonusPoints : Option Rat
  scoringSchemeId : Option Nat
  baseWeightedPct : Option Rat
  generalScorePct : Option Rat
  specializedScorePct : Option Rat
  finalWeightedPct : Option Rat
  recommendation : Option String

def EvaluationRecord.form (r : EvaluationRecord) : ScoredForm where
  scores := r.scores
  bonusPoints := r.bonusPoints
  scoringSchemeId := r.scoringSchemeId
  baseWeightedPct := r.baseWeightedPct
  generalScorePct := r.generalScorePct
  specializedScorePct := r.specializedScorePct
  finalWeightedPct := r.finalWeightedPct
  recommendation := r.recommendation

theorem claimedFor_form (r : EvaluationRecord) (a : Action) (user : CurrentUser) :
    (r.claimedFor a user).form = r.form := by
  unfold EvaluationRecord.claimedFor
  split <;> rfl

theorem isTheScorer_draft (h : r.isTheScorer user = true) : r.status = .draft := by
  unfold EvaluationRecord.isTheScorer at h
  simp only [Bool.and_eq_true, decide_eq_true_eq] at h
  exact h.1.1

/-- The submissions leave the draft and nothing else. -/
theorem submit_fromStatuses (ha : a.isSubmit = true) : (transitions a).fromStatuses = [.draft] := by
  cases a <;> first | exact absurd ha (by decide) | rfl

theorem submit_not_finalized (ha : a.isSubmit = true) :
    (transitions a).toStatus ≠ .finalized ∧ (transitions a).toStatus ≠ .draft := by
  cases a <;> first | exact absurd ha (by decide) | exact ⟨by decide, by decide⟩

/-- A submission does not claim: its seat is the scorer's. -/
theorem claimedFor_submit (ha : a.isSubmit = true) : r.claimedFor a user = r := by
  unfold EvaluationRecord.claimedFor
  rw [if_neg]
  cases a <;> first | exact absurd ha (by decide) | simp [Transition.claims, transitions, submission]

/-- What a submission leaves: a complete form with its result. -/
theorem submit_change (h : Change db req user r (some a) r') (ha : a.isSubmit = true) :
    isComplete db r = true ∧
      r' = (r.withResult (resultFor db r)).moved req.env (transitions a).toStatus := by
  cases h with
  | moved _ _ _ _ before hbefore =>
    rw [claimedFor_submit ha] at hbefore
    cases hbefore with
    | plain hsubmit =>
      rw [ha] at hsubmit
      cases hsubmit
    | scored _ hcomplete => exact ⟨hcomplete, rfl⟩
    | stamped hto => exact absurd hto (submit_not_finalized ha).1

/-- A submission stores the result of the record's own scores. -/
theorem submitEvaluation_result {env : Env} {w : Work} (h : submitEvaluation db env user r = .ok w) :
    ∃ status, w.record = (r.withResult (resultFor db r)).moved env status := by
  unfold submitEvaluation at h
  simp only [bind_eq_ok] at h
  obtain ⟨-, -, happly⟩ := h
  obtain ⟨-, -, -, w₀, hw₀, -, hrecord, -, -⟩ := applyTransition_ok happly
  rw [claimedFor_submit submitAction_isSubmit] at hw₀
  obtain ⟨-, hresult, -, -⟩ := finalizeScoring_ok hw₀
  exact ⟨_, by rw [hrecord, hresult]⟩

/-- Outside the draft nothing writes the scored form. -/
theorem Change.form_eq (h : Change db req user r o r') (hdraft : r.status ≠ .draft) :
    r'.form = r.form := by
  cases h with
  | scored hscorer => exact absurd (isTheScorer_draft hscorer) hdraft
  | moved a hallowed _ _ before hbefore =>
    show before.form = r.form
    rw [← claimedFor_form r a user]
    cases hbefore with
    | plain => rfl
    | stamped => rfl
    | scored hsubmit =>
      have hfrom := (transitionBlock_eq_none.mp hallowed).1
      rw [submit_fromStatuses hsubmit, List.mem_singleton] at hfrom
      exact absurd hfrom hdraft
  | _ => rfl

end

/-! ## Tables that a request does not write -/

section

variable {db db' : Database} {req : Request} {user : CurrentUser}

theorem insertOwnAccount_records (username : Option String) (personnelId : Nat) :
    (insertOwnAccount db username personnelId).evaluationRecords = db.evaluationRecords := by
  unfold insertOwnAccount
  split <;> rfl

theorem insertAccess_records (chain : Option Chain) (personnelId userId : Nat) :
    (insertAccess db chain personnelId userId).evaluationRecords = db.evaluationRecords := by
  unfold insertAccess
  split <;> rfl

theorem writeAccess_records (personnelId : Nat) (chain : Chain) (userId : Nat) :
    (writeAccess db personnelId chain userId).evaluationRecords = db.evaluationRecords := by
  unfold writeAccess
  split <;> rfl

theorem importRow_records (env : Env) (row : ImportRow) :
    (importRow env user db row).evaluationRecords = db.evaluationRecords := by
  show (insertOwnAccount _ _ _).evaluationRecords = _
  rw [insertOwnAccount_records, insertAccess_records]
  rfl

theorem importRows_records (env : Env) (rows : List ImportRow) :
    (rows.foldl (importRow env user) db).evaluationRecords = db.evaluationRecords := by
  induction rows generalizing db with
  | nil => rfl
  | cons row rows ih =>
    rw [List.foldl_cons, ih, importRow_records]

/-! ## Opening -/

theorem ensureFramework_records : (ensureFramework db).2.evaluationRecords = db.evaluationRecords := by
  rw [(ensureFramework_spec db).1]

theorem mem_insertRecord {o : Opening} {access : EvaluationAccess} {hrReviewSkipped : Bool}
    {r : EvaluationRecord} :
    r ∈ (insertRecord db o access hrReviewSkipped).evaluationRecords ↔
      r ∈ db.evaluationRecords ∨
        r = newRecord o access hrReviewSkipped (evaluationCode (db.evaluationCodeSeq + 1))
          (db.evaluationRecords.seq + 1) :=
  Table.mem_insert (newRecord_id _ _ _ _)

/-- Opening keeps the records that there are. -/
theorem openRecords_keeps {env : Env} {accesses : List EvaluationAccess} {k : Nat}
    {r : EvaluationRecord} (hget : db.evaluationRecords.get? k = some r) :
    (openRecords db env accesses).evaluationRecords.get? k = some r := by
  unfold openRecords
  rw [← ensureFramework_records] at hget
  generalize (ensureFramework db).2 = d at hget
  induction accesses generalizing d with
  | nil => exact hget
  | cons access accesses ih =>
    rw [List.foldl_cons]
    exact ih _ (Table.get?_insert_of_get? (newRecord_id _ _ _ _) hget)

/-- What opening adds. -/
theorem openRecords_opens {env : Env} {accesses : List EvaluationAccess} {r : EvaluationRecord}
    (hmem : r ∈ (openRecords db env accesses).evaluationRecords) :
    r ∈ db.evaluationRecords ∨ ∃ access ∈ accesses, ∃ code id,
      r = newRecord (openingOf db env (ensureFramework db).1) access
        (subjectBelongsToHr db access.personnelId) code id := by
  unfold openRecords at hmem
  rw [← ensureFramework_records]
  generalize (ensureFramework db).2 = d at hmem ⊢
  induction accesses generalizing d with
  | nil => exact Or.inl hmem
  | cons access accesses ih =>
    rw [List.foldl_cons] at hmem
    rcases ih _ hmem with hold | ⟨access', haccess', hnew⟩
    · rcases mem_insertRecord.mp hold with hold | hnew
      · exact Or.inl hold
      · exact Or.inr ⟨access, List.mem_cons_self, _, _, hnew⟩
    · exact Or.inr ⟨access', List.mem_cons_of_mem _ haccess', hnew⟩

/-! ## One step -/

/-- Publishing rebinds every record that is movable to the new version. -/
theorem publish_get? (changeKind : String) (changeNote : Option String) (k : Nat) :
    (publish db user changeKind changeNote).evaluationRecords.get? k =
      (db.evaluationRecords.get? k).map fun r =>
        r.rebind (bump db (some user.id) changeKind changeNote).1 :=
  Table.get?_map _ _ (fun r => r.rebind_id _) _

theorem rebind_change (hop : req.operation.changesMembership db = true)
    (framework : IndicatorFramework) (r : EvaluationRecord) :
    Change db req user r none (r.rebind framework) := by
  unfold EvaluationRecord.rebind
  split
  next hmovable => exact Change.rebound framework hmovable hop
  next => exact noted_self

theorem openRecordOf_spec {personnelId : Nat} {r : EvaluationRecord}
    (h : db.openRecordOf personnelId = some r) :
    r ∈ db.evaluationRecords ∧ r.subjectPersonnelId = personnelId ∧ r.isOpen = true := by
  have hsome := List.find?_some h
  rw [Bool.and_eq_true, decide_eq_true_eq] at hsome
  exact ⟨List.mem_of_find?_eq_some h, hsome.1, hsome.2⟩

/-- The row that a write leaves under a key. -/
theorem get?_put_of_id {t : Table EvaluationRecord} {r r' r₀ : EvaluationRecord} {k : Nat}
    (hget : t.get? k = some r) (hid : r'.id = r₀.id) :
    (t.put r').get? k = some (if r₀.id = k then r' else r) := by
  by_cases hk : r₀.id = k
  · subst hk
    rw [if_pos rfl, ← hid]
    exact Table.get?_put_self (by rw [show HasId.id r' = r₀.id from hid]; exact hget)
  · rw [if_neg hk, ← hget]
    exact Table.get?_put_ne fun he => hk (hid ▸ he.symm)

/-- The effect on a record that exists. -/
theorem Effect.record {performed : Nat → Option Action} (h : Effect db req user performed db') {k : Nat}
    {r : EvaluationRecord} (hget : db.evaluationRecords.get? k = some r) :
    ∃ r', db'.evaluationRecords.get? k = some r' ∧ Change db req user r (performed k) r' := by
  cases h with
  | onRecord j op hop r₀ hget₀ w hrun hchange comments =>
    have hid₀ : r₀.id = j := Table.id_of_get? hget₀
    refine ⟨_, get?_put_of_id hget hchange.id_eq, ?_⟩
    rw [hid₀]
    by_cases hj : j = k
    · subst hj
      rw [hget] at hget₀
      cases hget₀
      simpa using hchange
    · simpa [hj] using noted_self
  | personUpdated personnelId payload hop people hseq hpeople records hrecords =>
    rcases hrecords with ⟨hnone, rfl⟩ | ⟨r₀, w, hsome, rfl, hchange⟩
    · exact ⟨r, hget, by simpa [hnone] using noted_self⟩
    · obtain ⟨personId, -, hopen⟩ := Option.bind_eq_some_iff.mp hsome
      have hmem := (openRecordOf_spec hopen).1
      refine ⟨_, get?_put_of_id hget hchange.id_eq, ?_⟩
      simp only [hsome, Option.map_some, Option.some.injEq]
      by_cases hk : r₀.id = k
      · rw [if_pos hk, if_pos hk]
        have hr : r₀ = r := by
          have hself : db.evaluationRecords.get? r₀.id = some r₀ := Table.get?_of_mem hmem
          rw [hk, hget] at hself
          exact (Option.some.inj hself).symm
        rw [← hr]
        exact hchange
      · rw [if_neg hk, if_neg hk]
        exact noted_self
  | opened => exact ⟨r, openRecords_keeps hget, noted_self⟩
  | formPublished hop indicators hform =>
    refine ⟨_, by rw [publish_get?]; exact congrArg _ hget, rebind_change hop _ r⟩
  | accessWritten => exact ⟨r, by rw [writeAccess_records]; exact hget, noted_self⟩
  | personAdded => exact ⟨r, by rw [insertOwnAccount_records]; exact hget, noted_self⟩
  | imported => exact ⟨r, by rw [importRows_records]; exact hget, noted_self⟩
  | _ => exact ⟨r, hget, noted_self⟩

/-- How a record that exists came out of a request: as an endpoint of records left it, as it was, bound to
the new version of the form, or cancelled with the departure of its subject. -/
theorem Effect.record_cases {performed : Nat → Option Action} (h : Effect db req user performed db')
    {k : Nat} {r : EvaluationRecord} (hget : db.evaluationRecords.get? k = some r) :
    ∃ r', db'.evaluationRecords.get? k = some r' ∧
      ((∃ op w, req.operation = .onRecord k op ∧ op.run db req.env user r = .ok w ∧
          Change db req user r (op.action user r) w.record ∧ r' = w.record) ∨
        r' = r ∨ (∃ framework, r' = r.rebind framework) ∨
        Change db req user r (some .cancelOnSeparation) r') := by
  cases h with
  | onRecord j op hop r₀ hget₀ w hrun hchange comments =>
    have hid₀ : r₀.id = j := Table.id_of_get? hget₀
    refine ⟨_, get?_put_of_id hget hchange.id_eq, ?_⟩
    rw [hid₀]
    by_cases hj : j = k
    · subst hj
      rw [hget] at hget₀
      cases hget₀
      exact Or.inl ⟨op, w, hop, hrun, hchange, if_pos rfl⟩
    · exact Or.inr (Or.inl (if_neg hj))
  | personUpdated personnelId payload hop people hseq hpeople records hrecords =>
    rcases hrecords with ⟨-, rfl⟩ | ⟨r₀, w, hsome, rfl, hchange⟩
    · exact ⟨r, hget, Or.inr (Or.inl rfl)⟩
    · obtain ⟨personId, -, hopen⟩ := Option.bind_eq_some_iff.mp hsome
      have hmem := (openRecordOf_spec hopen).1
      refine ⟨_, get?_put_of_id hget hchange.id_eq, ?_⟩
      by_cases hk : r₀.id = k
      · have hr : r₀ = r := by
          have hself : db.evaluationRecords.get? r₀.id = some r₀ := Table.get?_of_mem hmem
          rw [hk, hget] at hself
          exact (Option.some.inj hself).symm
        rw [if_pos hk, ← hr]
        exact Or.inr (Or.inr (Or.inr hchange))
      · rw [if_neg hk]
        exact Or.inr (Or.inl rfl)
  | opened => exact ⟨r, openRecords_keeps hget, Or.inr (Or.inl rfl)⟩
  | formPublished hop indicators hform =>
    refine ⟨_, by rw [publish_get?]; exact congrArg _ hget, Or.inr (Or.inr (Or.inl ⟨_, rfl⟩))⟩
  | accessWritten => exact ⟨r, by rw [writeAccess_records]; exact hget, Or.inr (Or.inl rfl)⟩
  | personAdded => exact ⟨r, by rw [insertOwnAccount_records]; exact hget, Or.inr (Or.inl rfl)⟩
  | imported => exact ⟨r, by rw [importRows_records]; exact hget, Or.inr (Or.inl rfl)⟩
  | _ => exact ⟨r, hget, Or.inr (Or.inl rfl)⟩

/-- The effect on a record that there is afterwards: it was there, or it was opened. -/
theorem Effect.record_or_opened {performed : Nat → Option Action}
    (h : Effect db req user performed db') {k : Nat} {r' : EvaluationRecord}
    (hget : db'.evaluationRecords.get? k = some r') :
    (∃ r, db.evaluationRecords.get? k = some r) ∨
      db' = openRecords db req.env (openedBy db req) ∧ ∃ access ∈ openedBy db req,
        access ∈ db.evaluationAccess ∧ inactiveSeatLabels db access.chain = [] ∧ ∃ code,
          r' = newRecord (openingOf db req.env (ensureFramework db).1) access
            (subjectBelongsToHr db access.personnelId) code k := by
  cases hold : db.evaluationRecords.get? k with
  | some r => exact Or.inl ⟨r, rfl⟩
  | none =>
    right
    have hsame : db'.evaluationRecords.get? k = db.evaluationRecords.get? k → False := by
      intro he
      rw [he, hold] at hget
      cases hget
    have hput : ∀ w, (db.evaluationRecords.put w).get? k = some r' → False := by
      intro w hw
      rw [Table.put, Table.get?_map, hold] at hw
      cases hw
    cases h with
    | opened haccess hseats =>
      rcases openRecords_opens (Table.mem_of_get? hget) with hmem | ⟨access, ha, code, id, rfl⟩
      · have hself : db.evaluationRecords.get? r'.id = some r' := Table.get?_of_mem hmem
        rw [show r'.id = k from Table.id_of_get? hget, hold] at hself
        cases hself
      · have hid : id = k := Table.id_of_get? hget
        subst hid
        exact ⟨rfl, access, ha, haccess access ha, hseats access ha, code, rfl⟩
    | onRecord _ _ _ _ _ w => exact (hput w.record hget).elim
    | personUpdated _ _ _ _ _ _ records hrecords =>
      rcases hrecords with ⟨-, rfl⟩ | ⟨_, w, -, rfl, -⟩
      · exact (hsame rfl).elim
      · exact (hput w hget).elim
    | formPublished =>
      rw [publish_get?] at hget
      simp [hold] at hget
    | accessWritten => exact (hsame (by rw [writeAccess_records])).elim
    | personAdded => exact (hsame (by rw [insertOwnAccount_records]; rfl)).elim
    | imported => exact (hsame (by rw [importRows_records])).elim
    | _ => exact (hsame rfl).elim

/-- A record stays, changed in one of the ways of `Change` by the account behind the request. -/
theorem step_record (h : Steps db req db') {k : Nat} {r : EvaluationRecord}
    (hget : db.evaluationRecords.get? k = some r) :
    ∃ user r', getCurrentUser db req.userId = .ok user ∧ db'.evaluationRecords.get? k = some r' ∧
      Change db req user r (performedOn db req k) r' := by
  obtain ⟨user, huser, d, _, _, heffect, rfl⟩ := effect_of_steps h
  obtain ⟨r', hr', hchange⟩ := heffect.record hget
  exact ⟨user, r', huser, hr', hchange⟩

/-- An endpoint of one record commits its work. -/
theorem step_commits {k : Nat} {op : RecordOperation} (hop : req.operation = .onRecord k op)
    (h : Steps db req db') :
    ∃ user r w, getCurrentUser db req.userId = .ok user ∧ db.evaluationRecords.get? k = some r ∧
      op.guard req.env user = .ok () ∧ op.payloadErrors = [] ∧ op.run db req.env user r = .ok w ∧
      db' = w.commit db := by
  unfold Steps step at h
  rw [bind_eq_ok] at h
  obtain ⟨user, huser, hrun⟩ := h
  rw [hop] at hrun
  change onRecord db req.env user k op = .ok db' at hrun
  unfold onRecord at hrun
  simp only [bind_eq_ok, pure_eq_ok, require_eq_ok, ensure_eq_ok] at hrun
  obtain ⟨_, hguard, _, hpayload, r, hget, w, hwork, rfl⟩ := hrun
  exact ⟨user, r, w, huser, hget, hguard, hpayload, hwork, rfl⟩

/-- An endpoint of one record leaves the record of its work. -/
theorem step_onRecord {k : Nat} {op : RecordOperation} (hop : req.operation = .onRecord k op)
    (h : Steps db req db') :
    ∃ user r w, getCurrentUser db req.userId = .ok user ∧ db.evaluationRecords.get? k = some r ∧
      op.run db req.env user r = .ok w ∧ db'.evaluationRecords.get? k = some w.record := by
  obtain ⟨user, r, w, huser, hget, hguard, -, hwork, rfl⟩ := step_commits hop h
  have hid : r.id = k := Table.id_of_get? hget
  have hkept : w.record.id = r.id := (op.run_change (by rw [hid]; exact hop) hguard hwork).id_eq
  refine ⟨user, r, w, huser, hget, hwork, ?_⟩
  change (db.evaluationRecords.put w.record).get? k = some w.record
  rw [get?_put_of_id hget hkept, if_pos hid]

/-- A new record is a draft with the seats of an access row, none of them inactive. -/
theorem step_opened (h : Steps db req db') {k : Nat} {r' : EvaluationRecord}
    (hnone : db.evaluationRecords.get? k = none) (hget : db'.evaluationRecords.get? k = some r') :
    ∃ access ∈ openedBy db req, access ∈ db.evaluationAccess ∧
      inactiveSeatLabels db access.chain = [] ∧ ∃ code,
        r' = newRecord (openingOf db req.env (ensureFramework db).1) access
          (subjectBelongsToHr db access.personnelId) code k := by
  obtain ⟨user, -, d, _, _, heffect, rfl⟩ := effect_of_steps h
  rcases heffect.record_or_opened hget with ⟨r, hr⟩ | ⟨-, hopened⟩
  · rw [hnone] at hr
    cases hr
  · exact hopened

end

/-! ## Invariants of the records -/

/-- A property of records that drafts have and changes keep holds in every run. -/
theorem record_invariant {P : EvaluationRecord → Prop}
    (hnew : ∀ o access skipped code id, P (newRecord o access skipped code id))
    (hchange : ∀ db req user r o r', P r → Change db req user r o r' → P r')
    {tr : List (Taken Database Request)} {db : Database} (h : SystemRun tr db) :
    ∀ k r, db.evaluationRecords.get? k = some r → P r := by
  refine h.invariant (P := fun db => ∀ k r, db.evaluationRecords.get? k = some r → P r) ?_ ?_
  · intro db hinit k r hget
    exact absurd (Table.mem_of_get? hget) (hinit.no_records r)
  · intro db req db' ih hstep k r' hget'
    cases hget : db.evaluationRecords.get? k with
    | some r =>
      obtain ⟨user, r'', -, hr'', hc⟩ := step_record hstep hget
      rw [hget'] at hr''
      cases hr''
      exact hchange _ _ _ _ _ _ (ih k r hget) hc
    | none =>
      obtain ⟨access, -, -, -, code, rfl⟩ := step_opened hstep hget hget'
      exact hnew _ _ _ _ _

end NexaHR
