import NexaHR.Properties.Backfill
import NexaHR.System.RecordRuns

/-! # The public verification of a document

`routers/verify.py`: whoever scans the code of a printed document is told what it says. Meanwhile requests are answered,
documents are downloaded, and sweeps archive those that nobody has downloaded.

* `verifyDocument`: the answer of the page.
* `OfficeRun`: requests, downloads and sweeps in any order.
* `Change.closed_stays`: nothing but notes changes on a closed record.
* `verification_tells_the_document`: the page says what the document says, and gives the hash of its rendering.
* `verification_is_final`: it says so from then on, whatever happens.
-/

namespace NexaHR

open Foundations

set_option autoImplicit false

/-! ## The page -/

structure VerificationResult where
  valid : Bool
  evaluationCode : String
  subjectFullName : String
  orgUnit : String
  finalWeightedPct : Option Rat
  recommendation : Option String
  finalizedAt : Option Nat
  sha256 : String
  documentReady : Bool
  deriving DecidableEq

def noSuchDocument : HTTPException := ⟨404, "سند نهایی‌شده‌ای با این کد یافت نشد", none⟩

/-- The record that was finalized with the token. -/
def recordOfToken (records : Table EvaluationRecord) (token : String) : Option EvaluationRecord :=
  records.rows.find? fun r => r.verifyToken = some token

def verifyDocument (db : Database) (docs : Documents) (token : String) : Except HTTPException VerificationResult := do
  let r ← require ((recordOfToken db.evaluationRecords token).filter fun r => r.status = .finalized) noSuchDocument
  let document := docs.getDocument r.id
  let personnel := r.finalSnapshot.map FinalSnapshot.personnel
  pure
    { valid := true
      evaluationCode := r.evaluationCode
      subjectFullName := (personnel.map SnapshotPersonnel.fullName).getD ""
      orgUnit := (personnel.map SnapshotPersonnel.orgUnit).getD ""
      finalWeightedPct := r.finalWeightedPct
      recommendation := r.recommendation
      finalizedAt := r.finalizedAt
      sha256 := (document.map EvaluationDocument.sha256).getD ""
      documentReady := document.isSome }

/-! ## Requests, downloads and sweeps -/

structure DocumentOffice where
  db : Database
  docs : Documents

inductive OfficeCall
  | request (req : Request)
  /-- A download, or the task after a finalization. -/
  | archived (p : Printer) (recordId : Nat)
  | swept (p : Printer) (sweep : BackfillSweep)

def OfficeSteps (o : DocumentOffice) (call : OfficeCall) (o' : DocumentOffice) : Prop :=
  match call with
  | .request req => Steps o.db req o'.db ∧ o'.docs = o.docs
  | .archived p recordId => o' = { o with docs := archiveDetached p o.db.evaluationRecords o.docs recordId }
  | .swept p sweep => o' = { o with docs := (runDocumentBackfillSweep p o.db.evaluationRecords o.docs sweep).1 }

structure OfficeOpens (o : DocumentOffice) : Prop where
  db : Initial o.db
  docs : o.docs.rows = []

abbrev OfficeRun (tr : List (Taken DocumentOffice OfficeCall)) (o : DocumentOffice) : Prop :=
  Run OfficeOpens OfficeSteps tr o

/-- The token that is drawn is that of no record, as the index on the column has it. -/
def DrawsFresh (x : Taken DocumentOffice OfficeCall) : Prop :=
  match x.label with
  | .request req => ∀ r ∈ x.before.db.evaluationRecords, r.verifyToken ≠ some req.env.freshToken
  | _ => True

/-- The printer that was at work in a step. -/
def printerOf : OfficeCall → Option Printer
  | .request _ => none
  | .archived p _ => some p
  | .swept p _ => some p

/-! ## Closed records -/

section

variable {db db' : Database} {req : Request} {user : CurrentUser} {r r' : EvaluationRecord} {o : Option Action}

/-- Nothing but notes changes on a closed record. -/
theorem Change.closed_stays (h : Change db req user r o r') (hclosed : r.isOpen = false) :
    ∃ n, r' = r.withNotes n := by
  have hnot : r.isOpen ≠ true := by simp [hclosed]
  cases h with
  | noted n => exact ⟨n, rfl⟩
  | scored hscorer =>
    have hopen : r.isOpen = true := by
      unfold EvaluationRecord.isOpen
      rw [isTheScorer_draft hscorer]
      rfl
    exact absurd hopen hnot
  | rebound framework hmovable =>
    unfold EvaluationRecord.isMovable at hmovable
    rw [hclosed] at hmovable
    cases hmovable
  | claimed hopen => exact absurd hopen hnot
  | handedOver hopen => exact absurd hopen hnot
  | reassigned hopen => exact absurd hopen hnot
  | moved a hallowed =>
    have hfrom := (transitionBlock_eq_none.mp hallowed).1
    exact absurd (decide_eq_true (fromStatuses_open a r.status hfrom)) hnot

/-- A closed record is the same after any request but for its notes. -/
theorem closed_step (h : Steps db req db') {k : Nat} (hget : db.evaluationRecords.get? k = some r)
    (hclosed : r.isOpen = false) : ∃ n, db'.evaluationRecords.get? k = some (r.withNotes n) := by
  obtain ⟨user, r', -, hr', hchange⟩ := step_record h hget
  obtain ⟨n, rfl⟩ := hchange.closed_stays hclosed
  exact ⟨n, hr'⟩

/-- A token is drawn with the finalization. -/
theorem Change.token_cases (h : Change db req user r o r') :
    r'.verifyToken = r.verifyToken ∨
      (r'.verifyToken = some req.env.freshToken ∧ ∃ a, o = some a ∧ (transitions a).toStatus = .finalized) := by
  cases h with
  | moved a _ _ _ before hbefore =>
    have hclaimed : (r.claimedFor a user).verifyToken = r.verifyToken := by
      unfold EvaluationRecord.claimedFor
      split <;> rfl
    cases hbefore with
    | plain => exact Or.inl hclaimed
    | scored => exact Or.inl hclaimed
    | stamped hto => exact Or.inr ⟨rfl, a, rfl, hto⟩
  | _ => exact Or.inl rfl

/-- A request finalizes the record that it is about. -/
theorem finalizes_own {k : Nat} {a : Action} (h : performedOn db req k = some a)
    (hto : (transitions a).toStatus = .finalized) : ∃ op, req.operation = .onRecord k op := by
  unfold performedOn at h
  split at h
  · next recordId op hop =>
    split at h
    · next hk => exact ⟨op, hk ▸ hop⟩
    · cases h
  · split at h
    · cases h
      cases hto
    · cases h

/-! ## Tokens -/

/-- No two records have the same token. -/
def TokensDistinct (db : Database) : Prop :=
  ∀ r ∈ db.evaluationRecords, ∀ r' ∈ db.evaluationRecords, ∀ token,
    r.verifyToken = some token → r'.verifyToken = some token → r = r'

theorem tokensDistinct_step (h : Steps db req db')
    (hfresh : ∀ r ∈ db.evaluationRecords, r.verifyToken ≠ some req.env.freshToken) (hdistinct : TokensDistinct db) :
    TokensDistinct db' := by
  have hold : ∀ r' ∈ db'.evaluationRecords, ∀ token, r'.verifyToken = some token →
      ∃ r user, db.evaluationRecords.get? r'.id = some r ∧ Change db req user r (performedOn db req r'.id) r' := by
    intro r' hr' token htoken
    have hget' : db'.evaluationRecords.get? r'.id = some r' := Table.get?_of_mem hr'
    cases hget : db.evaluationRecords.get? r'.id with
    | some r =>
      obtain ⟨user, r₁, -, hr₁, hchange⟩ := step_record h hget
      rw [hget'] at hr₁
      cases hr₁
      exact ⟨r, user, rfl, hchange⟩
    | none =>
      obtain ⟨access, -, -, -, code, hnew⟩ := step_opened h hget hget'
      rw [hnew] at htoken
      cases htoken
  intro r₁' h₁ r₂' h₂ token htoken₁ htoken₂
  obtain ⟨r₁, user₁, hget₁, hchange₁⟩ := hold r₁' h₁ token htoken₁
  obtain ⟨r₂, user₂, hget₂, hchange₂⟩ := hold r₂' h₂ token htoken₂
  have hmem₁ : r₁ ∈ db.evaluationRecords := Table.mem_of_get? hget₁
  have hmem₂ : r₂ ∈ db.evaluationRecords := Table.mem_of_get? hget₂
  have hid : r₁'.id = r₂'.id := by
    obtain hsame₁ | ⟨hdrawn₁, a₁, hperformed₁, hto₁⟩ := hchange₁.token_cases
    · obtain hsame₂ | ⟨hdrawn₂, _⟩ := hchange₂.token_cases
      · have heq := hdistinct r₁ hmem₁ r₂ hmem₂ token (hsame₁ ▸ htoken₁) (hsame₂ ▸ htoken₂)
        rw [← (Table.id_of_get? hget₁ : r₁.id = r₁'.id), ← (Table.id_of_get? hget₂ : r₂.id = r₂'.id), heq]
      · rw [htoken₂] at hdrawn₂
        exact absurd (hdrawn₂ ▸ hsame₁ ▸ htoken₁) (hfresh r₁ hmem₁)
    · obtain hsame₂ | ⟨_, a₂, hperformed₂, hto₂⟩ := hchange₂.token_cases
      · rw [htoken₁] at hdrawn₁
        exact absurd (hdrawn₁ ▸ hsame₂ ▸ htoken₂) (hfresh r₂ hmem₂)
      · -- both would be the record of the request
        obtain ⟨op₁, hop₁⟩ := finalizes_own hperformed₁ hto₁
        obtain ⟨op₂, hop₂⟩ := finalizes_own hperformed₂ hto₂
        exact (Operation.onRecord.inj (hop₁.symm.trans hop₂)).1
  exact Table.eq_of_id_eq h₁ h₂ hid

theorem recordOfToken_eq_some {token : String} (hdistinct : TokensDistinct db) :
    recordOfToken db.evaluationRecords token = some r ↔ r ∈ db.evaluationRecords ∧ r.verifyToken = some token := by
  unfold recordOfToken
  constructor
  · intro h
    exact ⟨List.mem_of_find?_eq_some h, by simpa using List.find?_some h⟩
  · intro h
    cases hfind : db.evaluationRecords.rows.find? fun r => r.verifyToken = some token with
    | none =>
      have hnone := List.find?_eq_none.mp hfind r h.1
      simp [h.2] at hnone
    | some r₁ =>
      have htoken : r₁.verifyToken = some token := by simpa using List.find?_some hfind
      rw [hdistinct r₁ (List.mem_of_find?_eq_some hfind) r h.1 token htoken h.2]

/-! ## What the snapshot says -/

/-- A finalized record has a document that says what its columns say. -/
def Agrees (r : EvaluationRecord) : Prop :=
  r.status = .finalized → ∃ snapshot, r.finalSnapshot = some snapshot ∧ snapshot.evaluationCode = r.evaluationCode ∧
    snapshot.finalWeightedPct = r.finalWeightedPct ∧ snapshot.recommendation = r.recommendation ∧
    snapshot.finalizedAt = r.finalizedAt

theorem finalized_closed (h : r.status = .finalized) : r.isOpen = false := by
  unfold EvaluationRecord.isOpen
  rw [h]
  rfl

theorem Change.agrees (h : Change db req user r o r') (hr : Agrees r) : Agrees r' := by
  cases hopen : r.isOpen with
  | false =>
    obtain ⟨n, rfl⟩ := h.closed_stays hopen
    exact hr
  | true =>
    intro hfinal
    cases h with
    | moved a _ _ _ before hbefore =>
      have hto : (transitions a).toStatus = .finalized := hfinal
      cases hbefore with
      | plain _ hne => exact absurd hto hne
      | scored hsubmit => exact absurd hto (submit_not_finalized hsubmit).1
      | stamped _ snapshot hsnapshot =>
        unfold buildFinalSnapshot at hsnapshot
        simp only [bind_eq_ok, pure_eq_ok] at hsnapshot
        obtain ⟨_, -, rfl⟩ := hsnapshot
        refine ⟨_, rfl, rfl, rfl, rfl, ?_⟩
        simp [EvaluationRecord.moved]
    | _ =>
      -- the status is the one before, of an open record
      have hwas : r.status = .finalized := hfinal
      rw [finalized_closed hwas] at hopen
      cases hopen

theorem agrees_step (h : Steps db req db') (hall : ∀ r ∈ db.evaluationRecords, Agrees r) :
    ∀ r ∈ db'.evaluationRecords, Agrees r := by
  intro r' hr'
  have hget' : db'.evaluationRecords.get? r'.id = some r' := Table.get?_of_mem hr'
  cases hget : db.evaluationRecords.get? r'.id with
  | some r =>
    obtain ⟨user, r₁, -, hr₁, hchange⟩ := step_record h hget
    rw [hget'] at hr₁
    cases hr₁
    exact hchange.agrees (hall r (Table.mem_of_get? hget))
  | none =>
    obtain ⟨access, -, -, -, code, hnew⟩ := step_opened h hget hget'
    rw [hnew]
    intro hfinal
    cases hfinal

end

/-! ## What is archived -/

/-- The document is the rendering of a finalized record by one of the printers. -/
def Truthful (used : Printer → Prop) (records : Table EvaluationRecord) (d : EvaluationDocument) : Prop :=
  ∃ r, records.get? d.evaluationRecordId = some r ∧ r.status = .finalized ∧
    ∃ p, used p ∧ p.rendering r = .bytes d.pdfBytes ∧ d.sha256 = p.sha256 d.pdfBytes

def Faithful (used : Printer → Prop) (records : Table EvaluationRecord) (docs : Documents) : Prop :=
  ∀ d ∈ docs.rows, Truthful used records d

section

variable {used : Printer → Prop} {p : Printer} {records : Table EvaluationRecord} {docs docs' : Documents}
  {w : ArchiveSession} {r : EvaluationRecord}

theorem archiveDocument_faithful {meanwhile : Documents → Documents} (hp : used p)
    (hmeanwhile : ∀ docs, Faithful used records docs → Faithful used records (meanwhile docs))
    (hget : records.get? r.id = some r) (hfinal : r.status = .finalized)
    (hcommitted : Faithful used records w.committed) (hseen : Faithful used records w.seen) :
    Faithful used records (archiveDocument p meanwhile w r).1.committed ∧
      Faithful used records (archiveDocument p meanwhile w r).1.seen := by
  have hlater := And.intro (hmeanwhile _ hcommitted) (hmeanwhile _ hseen)
  unfold archiveDocument
  split
  · exact ⟨hcommitted, hseen⟩
  split
  · split
    · exact hlater
    · exact hlater
    · next pdf hpdf =>
      dsimp only
      split
      · next seen hinsert =>
        refine ⟨hlater.1, fun d hd => ?_⟩
        rw [(Documents.insert_eq_some hinsert).2] at hd
        cases List.mem_cons.mp hd with
        | inl hnew => exact hnew ▸ ⟨r, hget, hfinal, p, hp, hpdf, rfl⟩
        | inr hold => exact hlater.2 d hold
      · exact hlater
  · exact ⟨hcommitted, hseen⟩

theorem archiveDetached_faithful (hp : used p) (k : Nat) (h : Faithful used records docs) :
    Faithful used records (archiveDetached p records docs k) := by
  unfold archiveDetached
  split
  · exact h
  · next r hget =>
    split
    · next hboth =>
      have hid : r.id = k := Table.id_of_get? hget
      exact (archiveDocument_faithful hp (fun _ hd => hd) (by rw [hid]; exact hget) hboth.1 h h).2
    · exact h

theorem downloads_faithful (hp : used p) (ids : List Nat) (h : Faithful used records docs) :
    Faithful used records (ids.foldl (archiveDetached p records) docs) := by
  induction ids generalizing docs with
  | nil => exact h
  | cons k ids ih => exact ih (archiveDetached_faithful hp k h)

theorem archivePending_faithful {sweep : BackfillSweep} (hp : used p) {pending : List EvaluationRecord} (created : Nat)
    (hpending : ∀ r ∈ pending, r ∈ records ∧ r.status = .finalized) (hcommitted : Faithful used records w.committed)
    (hseen : Faithful used records w.seen) :
    Faithful used records (archivePending p records sweep pending w created).1 := by
  induction pending generalizing w created with
  | nil => exact hseen
  | cons r pending ih =>
    rw [List.forall_mem_cons] at hpending
    have hboth := archiveDocument_faithful hp
      (fun docs hd => downloads_faithful hp (sweep.downloads r.id) hd) (Table.get?_of_mem hpending.1.1) hpending.1.2
      hcommitted hseen
    rw [archivePending]
    split
    · next harchive =>
      rw [harchive] at hboth
      exact hboth.1
    · next harchive =>
      rw [harchive] at hboth
      exact ih _ hpending.2 hboth.1 hboth.2

theorem sweep_faithful (hp : used p) (sweep : BackfillSweep) (h : Faithful used records docs) :
    Faithful used records (runDocumentBackfillSweep p records docs sweep).1 := by
  unfold runDocumentBackfillSweep
  split
  · refine archivePending_faithful hp 0 (fun r hr => ?_) h h
    obtain ⟨hmem, hpending⟩ := mem_pendingRecords.mp (mem_sweepPage hr)
    unfold isBackfillPending at hpending
    simp only [Bool.and_eq_true, decide_eq_true_eq] at hpending
    exact ⟨hmem, hpending.1.1⟩
  · exact h

theorem Faithful.mono {used' : Printer → Prop} (h : Faithful used records docs) (hused : ∀ p, used p → used' p) :
    Faithful used' records docs := by
  intro d hd
  obtain ⟨r, hget, hfinal, p, hp, hrest⟩ := h d hd
  exact ⟨r, hget, hfinal, p, hused p hp, hrest⟩

/-- A request leaves what is archived of the records as it is. -/
theorem faithful_step {db db' : Database} {req : Request} (h : Steps db req db')
    (hdocs : Faithful used db.evaluationRecords docs) : Faithful used db'.evaluationRecords docs := by
  intro d hd
  obtain ⟨r, hget, hfinal, p, hp, hrendering, hsha⟩ := hdocs d hd
  obtain ⟨n, hstays⟩ := closed_step h hget (finalized_closed hfinal)
  exact ⟨r.withNotes n, hstays, hfinal, p, hp, hrendering, hsha⟩

theorem getDocument_of_mem {d : EvaluationDocument} (h : d ∈ docs.rows) :
    docs.getDocument d.evaluationRecordId = some d := by
  cases hfound : docs.getDocument d.evaluationRecordId with
  | none => exact absurd rfl (Documents.getDocument_eq_none.mp hfound d h)
  | some e =>
    have hid : e.evaluationRecordId = d.evaluationRecordId := by simpa using List.find?_some hfound
    rw [Documents.eq_of_record_eq (List.mem_of_find?_eq_some hfound) h hid]

end

/-! ## The office -/

def usedIn (tr : List (Taken DocumentOffice OfficeCall)) (p : Printer) : Prop :=
  ∃ x ∈ tr, printerOf x.label = some p

structure OfficeSound (tr : List (Taken DocumentOffice OfficeCall)) (o : DocumentOffice) : Prop where
  tokens : TokensDistinct o.db
  agrees : ∀ r ∈ o.db.evaluationRecords, Agrees r
  faithful : Faithful (usedIn tr) o.db.evaluationRecords o.docs

section

variable {tr : List (Taken DocumentOffice OfficeCall)} {o o' : DocumentOffice} {call : OfficeCall}

theorem officeSound_step (hstep : OfficeSteps o call o') (hfresh : DrawsFresh ⟨o, call, o'⟩) (h : OfficeSound tr o) :
    OfficeSound (⟨o, call, o'⟩ :: tr) o' := by
  have holder : ∀ p, usedIn tr p → usedIn (⟨o, call, o'⟩ :: tr) p := by
    intro p hp
    obtain ⟨x, hx, hprinter⟩ := hp
    exact ⟨x, List.mem_cons_of_mem _ hx, hprinter⟩
  have hdocs := h.faithful.mono holder
  cases call with
  | request req =>
    obtain ⟨hsteps, hsame⟩ := hstep
    refine ⟨tokensDistinct_step hsteps hfresh h.tokens, agrees_step hsteps h.agrees, ?_⟩
    rw [hsame]
    exact faithful_step hsteps hdocs
  | archived p k =>
    have heq : o' = { o with docs := archiveDetached p o.db.evaluationRecords o.docs k } := hstep
    have hp : usedIn (⟨o, .archived p k, o'⟩ :: tr) p := ⟨_, List.mem_cons_self, rfl⟩
    subst heq
    exact ⟨h.tokens, h.agrees, archiveDetached_faithful hp k hdocs⟩
  | swept p sweep =>
    have heq : o' = { o with docs := (runDocumentBackfillSweep p o.db.evaluationRecords o.docs sweep).1 } := hstep
    have hp : usedIn (⟨o, .swept p sweep, o'⟩ :: tr) p := ⟨_, List.mem_cons_self, rfl⟩
    subst heq
    exact ⟨h.tokens, h.agrees, sweep_faithful hp sweep hdocs⟩

theorem officeSound_of_run (h : OfficeRun tr o) (hfresh : ∀ x ∈ tr, DrawsFresh x) : OfficeSound tr o := by
  refine h.invariant_of_history ?_ (fun _ _ _ _ hsound hstep hdraws => officeSound_step hstep hdraws hsound) hfresh
  intro o hopens
  refine ⟨?_, ?_, ?_⟩
  · intro r hr
    exact absurd hr (hopens.db.no_records r)
  · intro r hr
    exact absurd hr (hopens.db.no_records r)
  · intro d hd
    rw [hopens.docs] at hd
    cases hd

/-! ## What the page says -/

/-- The page says what the document says. -/
structure VerificationResult.Tells (a : VerificationResult) (snapshot : FinalSnapshot) : Prop where
  evaluationCode : a.evaluationCode = snapshot.evaluationCode
  subjectFullName : a.subjectFullName = snapshot.personnel.fullName
  orgUnit : a.orgUnit = snapshot.personnel.orgUnit
  finalWeightedPct : a.finalWeightedPct = snapshot.finalWeightedPct
  recommendation : a.recommendation = snapshot.recommendation
  finalizedAt : a.finalizedAt = snapshot.finalizedAt

/-- The answer about a record, with its document if there is one. -/
def answerAbout (r : EvaluationRecord) (document : Option EvaluationDocument) : VerificationResult where
  valid := true
  evaluationCode := r.evaluationCode
  subjectFullName := ((r.finalSnapshot.map FinalSnapshot.personnel).map SnapshotPersonnel.fullName).getD ""
  orgUnit := ((r.finalSnapshot.map FinalSnapshot.personnel).map SnapshotPersonnel.orgUnit).getD ""
  finalWeightedPct := r.finalWeightedPct
  recommendation := r.recommendation
  finalizedAt := r.finalizedAt
  sha256 := (document.map EvaluationDocument.sha256).getD ""
  documentReady := document.isSome

theorem verifyDocument_eq_ok {db : Database} {docs : Documents} {token : String} {a : VerificationResult}
    (hdistinct : TokensDistinct db) :
    verifyDocument db docs token = .ok a ↔ ∃ r ∈ db.evaluationRecords, r.verifyToken = some token ∧
      r.status = .finalized ∧ a = answerAbout r (docs.getDocument r.id) := by
  unfold verifyDocument
  simp only [bind_eq_ok, pure_eq_ok, require_eq_ok, Option.filter_eq_some_iff, recordOfToken_eq_some hdistinct,
    decide_eq_true_eq]
  constructor
  · intro h
    obtain ⟨r, ⟨⟨hr, htoken⟩, hfinal⟩, rfl⟩ := h
    exact ⟨r, hr, htoken, hfinal, rfl⟩
  · intro h
    obtain ⟨r, hr, htoken, hfinal, rfl⟩ := h
    exact ⟨r, ⟨⟨hr, htoken⟩, hfinal⟩, rfl⟩

/-- The page tells of one record what its document says, and gives the hash of the document's rendering. -/
theorem verification_tells_the_document (h : OfficeRun tr o) (hfresh : ∀ x ∈ tr, DrawsFresh x) {token : String}
    {a : VerificationResult} (ha : verifyDocument o.db o.docs token = .ok a) :
    ∃ r ∈ o.db.evaluationRecords, r.verifyToken = some token ∧
      (∀ r' ∈ o.db.evaluationRecords, r'.verifyToken = some token → r' = r) ∧
      (∃ snapshot, r.finalSnapshot = some snapshot ∧ a.Tells snapshot) ∧
      (a.documentReady = true → ∃ d ∈ o.docs.rows, d.evaluationRecordId = r.id ∧
        ∃ p, usedIn tr p ∧ p.rendering r = .bytes d.pdfBytes ∧ a.sha256 = p.sha256 d.pdfBytes) := by
  have hsound := officeSound_of_run h hfresh
  obtain ⟨r, hr, htoken, hfinal, rfl⟩ := (verifyDocument_eq_ok hsound.tokens).mp ha
  refine ⟨r, hr, htoken, fun r' hr' htoken' => hsound.tokens r' hr' r hr token htoken' htoken, ?_, ?_⟩
  · obtain ⟨snapshot, hsnapshot, hcode, hpct, hrecommendation, htime⟩ := hsound.agrees r hr hfinal
    refine ⟨snapshot, hsnapshot, hcode.symm, ?_, ?_, hpct.symm, hrecommendation.symm, htime.symm⟩
    · simp [answerAbout, hsnapshot]
    · simp [answerAbout, hsnapshot]
  · intro hready
    obtain ⟨d, hd⟩ := Option.isSome_iff_exists.mp (show (o.docs.getDocument r.id).isSome = true from hready)
    have hmem : d ∈ o.docs.rows := List.mem_of_find?_eq_some hd
    have hid : d.evaluationRecordId = r.id := by simpa using List.find?_some hd
    obtain ⟨r₁, hget, _, p, hp, hrendering, hsha⟩ := hsound.faithful d hmem
    rw [hid, show o.db.evaluationRecords.get? r.id = some r from Table.get?_of_mem hr] at hget
    cases hget
    refine ⟨d, hmem, hid, p, hp, hrendering, ?_⟩
    rw [← hsha]
    simp [answerAbout, hd]

/-! ## For good -/

/-- The record stays finalized with its columns, and the documents only become more. -/
def Kept (r : EvaluationRecord) (docs : Documents) (o : DocumentOffice) : Prop :=
  (∃ n, o.db.evaluationRecords.get? r.id = some (r.withNotes n)) ∧ Documents.Grows (fun _ => True) docs o.docs

theorem kept_step {r : EvaluationRecord} {docs : Documents} (hfinal : r.status = .finalized) (hkept : Kept r docs o)
    (hstep : OfficeSteps o call o') : Kept r docs o' := by
  obtain ⟨⟨n, hget⟩, hgrows⟩ := hkept
  cases call with
  | request req =>
    obtain ⟨hsteps, hsame⟩ := hstep
    have hclosed : (r.withNotes n).isOpen = false := finalized_closed hfinal
    obtain ⟨m, hstays⟩ := closed_step hsteps hget hclosed
    exact ⟨⟨m, hstays⟩, hsame ▸ hgrows⟩
  | archived p k =>
    have heq : o' = { o with docs := archiveDetached p o.db.evaluationRecords o.docs k } := hstep
    subst heq
    exact ⟨⟨n, hget⟩, hgrows.trans (archiveDetached_grows fun _ => trivial)⟩
  | swept p sweep =>
    have heq : o' = { o with docs := (runDocumentBackfillSweep p o.db.evaluationRecords o.docs sweep).1 } := hstep
    subst heq
    exact ⟨⟨n, hget⟩, hgrows.trans ((sweep_grows sweep).mono fun _ _ => trivial)⟩

/-- What the page has said of a token it says for good; only the hash may still be missing. -/
theorem verification_is_final {new old : List (Taken DocumentOffice OfficeCall)} {x : Taken DocumentOffice OfficeCall}
    (h : OfficeRun (new ++ x :: old) o) (hfresh : ∀ y ∈ new ++ x :: old, DrawsFresh y) {token : String}
    {a : VerificationResult} (ha : verifyDocument x.after.db x.after.docs token = .ok a) :
    ∃ a', verifyDocument o.db o.docs token = .ok a' ∧
      { a' with sha256 := a.sha256, documentReady := a.documentReady } = a ∧ (a.documentReady = true → a' = a) := by
  have hthen : OfficeRun (x :: old) x.after := Run.cons h.cut.1 h.cut.2
  have hdistinct := (officeSound_of_run hthen fun y hy => hfresh y (List.mem_append_right _ hy)).tokens
  obtain ⟨r, hr, htoken, hfinal, rfl⟩ := (verifyDocument_eq_ok hdistinct).mp ha
  have hkept : Kept r x.after.docs o := by
    refine h.cut_after.invariant (fun s hs => ?_) fun _ _ _ hkept hstep => kept_step hfinal hkept hstep
    subst hs
    exact ⟨⟨r.notes, Table.get?_of_mem hr⟩, Documents.Grows.refl _ _⟩
  obtain ⟨⟨n, hget⟩, hgrows⟩ := hkept
  have hmem : r.withNotes n ∈ o.db.evaluationRecords := Table.mem_of_get? hget
  have hnow := (officeSound_of_run h hfresh).tokens
  refine ⟨_, (verifyDocument_eq_ok hnow).mpr ⟨r.withNotes n, hmem, htoken, hfinal, rfl⟩, rfl, fun hready => ?_⟩
  obtain ⟨d, hd⟩ := Option.isSome_iff_exists.mp (show (x.after.docs.getDocument r.id).isSome = true from hready)
  have hid : d.evaluationRecordId = r.id := by simpa using List.find?_some hd
  have hlater := getDocument_of_mem (hgrows.kept d (List.mem_of_find?_eq_some hd))
  rw [hid] at hlater
  show answerAbout (r.withNotes n) (o.docs.getDocument r.id) = answerAbout r (x.after.docs.getDocument r.id)
  rw [hlater, hd]
  rfl

end

/-! ## An office at work -/

def nextOffice (o : DocumentOffice) : OfficeCall → DocumentOffice
  | .request req => { o with db := settled o.db req }
  | .archived p recordId => { o with docs := archiveDetached p o.db.evaluationRecords o.docs recordId }
  | .swept p sweep => { o with docs := (runDocumentBackfillSweep p o.db.evaluationRecords o.docs sweep).1 }

/-- The request is answered and draws a token that no record has. -/
def isOrderly (x : Taken DocumentOffice OfficeCall) : Bool :=
  match x.label with
  | .request req => (step x.before.db req).isOk &&
      x.before.db.evaluationRecords.rows.all fun r => r.verifyToken ≠ some req.env.freshToken
  | _ => true

theorem orderly_replay {o : DocumentOffice} {calls : List OfficeCall} (hopens : OfficeOpens o)
    (horderly : (replay nextOffice o calls).all isOrderly = true) :
    OfficeRun (replay nextOffice o calls) (endState nextOffice o calls) ∧
      ∀ x ∈ replay nextOffice o calls, DrawsFresh x := by
  have hall := List.all_eq_true.mp horderly
  constructor
  · refine run_replay hopens fun x hx => ?_
    have horder := hall x hx
    have hafter := after_replay hx
    obtain ⟨before, call, after⟩ := x
    dsimp only at hafter
    subst hafter
    cases call with
    | request req => exact ⟨steps_settled (Bool.and_eq_true_iff.mp horder).1, rfl⟩
    | archived p k => rfl
    | swept p sweep => rfl
  · intro x hx
    have horder := hall x hx
    obtain ⟨before, call, after⟩ := x
    cases call with
    | request req =>
      intro r hr
      simpa using List.all_eq_true.mp (Bool.and_eq_true_iff.mp horder).2 r hr
    | archived p k => trivial
    | swept p sweep => trivial

def newOffice : DocumentOffice := ⟨office fullChain, ⟨[], List.nodup_nil⟩⟩

theorem newOffice_opens : OfficeOpens newOffice := ⟨office_initial (by decide), rfl⟩

def onePage : Printer where
  weasyprintAvailable := true
  renderEvaluationSummaryPdf := fun _ _ => .bytes "page"
  verifyUrlFor := id
  sha256 := id

/-- A record is finalized by all of its chain, and then its document is downloaded. -/
def printedCalls : List OfficeCall := .archived onePage 1 :: finalizedByAll.map .request

theorem printed_orderly : (replay nextOffice newOffice printedCalls).all isOrderly = true := by decide

theorem printed_document_is_told :
    ∃ r ∈ (endState nextOffice newOffice printedCalls).db.evaluationRecords, r.verifyToken = some "t" := by
  obtain ⟨hrun, hfresh⟩ := orderly_replay newOffice_opens printed_orderly
  have hanswered : (verifyDocument (endState nextOffice newOffice printedCalls).db
      (endState nextOffice newOffice printedCalls).docs "t").isOk = true := by
    decide
  cases ha : verifyDocument (endState nextOffice newOffice printedCalls).db
      (endState nextOffice newOffice printedCalls).docs "t" with
  | error e =>
    rw [ha] at hanswered
    cases hanswered
  | ok a =>
    obtain ⟨r, hr, htoken, _⟩ := verification_tells_the_document hrun hfresh ha
    exact ⟨r, hr, htoken⟩

/-- The page answers already before the download, and still afterwards. -/
theorem printed_document_stays :
    ∃ a, verifyDocument (endState nextOffice newOffice printedCalls).db
      (endState nextOffice newOffice printedCalls).docs "t" = .ok a := by
  obtain ⟨hrun, hfresh⟩ := orderly_replay newOffice_opens printed_orderly
  have hanswered : (verifyDocument (endState nextOffice newOffice (finalizedByAll.map .request)).db
      (endState nextOffice newOffice (finalizedByAll.map .request)).docs "t").isOk = true := by
    decide
  cases ha : verifyDocument (endState nextOffice newOffice (finalizedByAll.map .request)).db
      (endState nextOffice newOffice (finalizedByAll.map .request)).docs "t" with
  | error e =>
    rw [ha] at hanswered
    cases hanswered
  | ok a =>
    obtain ⟨a', ha', _⟩ := @verification_is_final _ [⟨_, .archived onePage 1, _⟩] _ ⟨_, _, _⟩ hrun hfresh "t" a ha
    exact ⟨a', ha'⟩

end NexaHR
