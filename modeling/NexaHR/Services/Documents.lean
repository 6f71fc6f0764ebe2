import NexaHR.Foundations.Backlog
import NexaHR.Foundations.Runs
import NexaHR.Models.Database
import Mathlib.Data.Prod.Lex
import Mathlib.Order.WithBot
import Mathlib.Data.List.Sort

/-! # Archived documents

`services/documents.py` and the backfill of `services/scheduled.py`: the document of a finalized record is rendered
once and kept. While one session renders, others may archive documents of their own.

* `Documents`: the table, whose unique column no value of the type violates.
* `archiveFinalPdf`: the look, the rendering and the insert, with what the others commit in between.
* `runDocumentBackfillSweep`: what is committed afterwards, and what is answered.
* `Documents.Grows`: documents stay, and new ones are of certain records only.
-/

namespace NexaHR

open Foundations

set_option autoImplicit false

/-! ## The table -/

structure EvaluationDocument where
  evaluationRecordId : Nat
  pdfBytes : String
  sha256 : String
  deriving DecidableEq

structure Documents where
  rows : List EvaluationDocument
  one_each : (rows.map EvaluationDocument.evaluationRecordId).Nodup

namespace Documents

def getDocument (docs : Documents) (recordId : Nat) : Option EvaluationDocument :=
  docs.rows.find? fun d => d.evaluationRecordId = recordId

/-- The insert, which the unique column refuses for a record with a document. -/
def insert (docs : Documents) (document : EvaluationDocument) : Option Documents :=
  if h : document.evaluationRecordId ∈ docs.rows.map EvaluationDocument.evaluationRecordId then none
  else some
    { rows := document :: docs.rows
      one_each := List.nodup_cons.mpr ⟨h, docs.one_each⟩ }

/-- Documents stay, and the new ones are of records in `P`. -/
structure Grows (P : Nat → Prop) (docs docs' : Documents) : Prop where
  kept : ∀ d ∈ docs.rows, d ∈ docs'.rows
  fresh : ∀ d ∈ docs'.rows, d ∈ docs.rows ∨ P d.evaluationRecordId

section

variable {P Q : Nat → Prop} {docs docs' docs'' : Documents} {d : EvaluationDocument} {k : Nat}

theorem getDocument_eq_none : docs.getDocument k = none ↔ ∀ d ∈ docs.rows, d.evaluationRecordId ≠ k := by
  unfold getDocument
  rw [List.find?_eq_none]
  simp

theorem getDocument_isSome : (docs.getDocument k).isSome = true ↔ ∃ d ∈ docs.rows, d.evaluationRecordId = k := by
  unfold getDocument
  rw [List.find?_isSome]
  simp

theorem insert_eq_some (h : docs.insert d = some docs') :
    docs.getDocument d.evaluationRecordId = none ∧ docs'.rows = d :: docs.rows := by
  unfold insert at h
  split at h
  · cases h
  · next hnew =>
    cases h
    rw [getDocument_eq_none]
    exact ⟨fun e he hsame => hnew (List.mem_map.mpr ⟨e, he, hsame⟩), rfl⟩

theorem insert_eq_none (h : docs.insert d = none) : (docs.getDocument d.evaluationRecordId).isSome = true := by
  unfold insert at h
  split at h
  · next hold => exact getDocument_isSome.mpr (List.mem_map.mp hold)
  · cases h

theorem eq_of_record_eq {d' : EvaluationDocument} (hd : d ∈ docs.rows) (hd' : d' ∈ docs.rows)
    (h : d.evaluationRecordId = d'.evaluationRecordId) : d = d' :=
  List.inj_on_of_nodup_map docs.one_each hd hd' h

namespace Grows

theorem refl (P : Nat → Prop) (docs : Documents) : Grows P docs docs :=
  ⟨fun _ hd => hd, fun _ hd => Or.inl hd⟩

theorem trans (h : Grows P docs docs') (h' : Grows P docs' docs'') : Grows P docs docs'' where
  kept := fun d hd => h'.kept d (h.kept d hd)
  fresh := by
    intro d hd
    rcases h'.fresh d hd with hold | hnew
    · exact h.fresh d hold
    · exact Or.inr hnew

theorem mono (h : Grows P docs docs') (hPQ : ∀ k, P k → Q k) : Grows Q docs docs' :=
  ⟨h.kept, fun d hd => (h.fresh d hd).imp_right (hPQ _)⟩

theorem of_insert (h : docs.insert d = some docs') (hP : P d.evaluationRecordId) : Grows P docs docs' := by
  have hrows := (insert_eq_some h).2
  refine ⟨fun e he => ?_, fun e he => ?_⟩
  · rw [hrows]
    exact List.mem_cons_of_mem d he
  · rw [hrows] at he
    rcases List.mem_cons.mp he with rfl | hold
    · exact Or.inr hP
    · exact Or.inl hold

theorem archived (h : Grows P docs docs') (hk : (docs.getDocument k).isSome = true) :
    (docs'.getDocument k).isSome = true := by
  rw [getDocument_isSome] at hk ⊢
  obtain ⟨d, hd, hrecord⟩ := hk
  exact ⟨d, h.kept d hd, hrecord⟩

theorem not_archived (h : Grows P docs docs') (hP : ¬P k) (hk : docs.getDocument k = none) :
    docs'.getDocument k = none := by
  rw [getDocument_eq_none] at hk ⊢
  intro d hd hrecord
  rcases h.fresh d hd with hold | hnew
  · exact hk d hold hrecord
  · rw [hrecord] at hnew
    exact hP hnew

end Grows

end

end Documents

/-! ## Rendering -/

/-- A `RuntimeError` is caught, other exceptions are not. -/
inductive Rendering
  | bytes (pdf : String)
  | runtimeError
  | otherError
  deriving DecidableEq

structure Printer where
  weasyprintAvailable : Bool
  renderEvaluationSummaryPdf : Option FinalSnapshot → Option String → Rendering
  verifyUrlFor : String → String
  sha256 : String → String

namespace Printer

def rendering (p : Printer) (r : EvaluationRecord) : Rendering :=
  p.renderEvaluationSummaryPdf r.finalSnapshot ((r.verifyToken.filter (· ≠ "")).map p.verifyUrlFor)

/-- The document of the record can be made. -/
def renders (p : Printer) (r : EvaluationRecord) : Bool :=
  p.weasyprintAvailable &&
    match p.rendering r with
    | .bytes _ => true
    | _ => false

def raises (p : Printer) (r : EvaluationRecord) : Bool := p.weasyprintAvailable && decide (p.rendering r = .otherError)

end Printer

/-! ## Archiving -/

/-- What the others have committed, and what a session sees: its own inserts as well. -/
structure ArchiveSession where
  committed : Documents
  seen : Documents

/-- `archive_final_pdf`; `meanwhile` is what the others do while the document is rendered. -/
def archiveDocument (p : Printer) (meanwhile : Documents → Documents) (w : ArchiveSession) (r : EvaluationRecord) :
    ArchiveSession × Except Rendering (Option EvaluationDocument) :=
  match w.seen.getDocument r.id with
  | some existing => (w, .ok (some existing))
  | none =>
    if p.weasyprintAvailable then
      let later : ArchiveSession := ⟨meanwhile w.committed, meanwhile w.seen⟩
      match p.rendering r with
      | .runtimeError => (later, .ok none)
      | .otherError => (later, .error .otherError)
      | .bytes pdf =>
        let document : EvaluationDocument := ⟨r.id, pdf, p.sha256 pdf⟩
        match later.seen.insert document with
        | some seen => ({ later with seen := seen }, .ok (some document))
        | none => (later, .ok (later.seen.getDocument r.id))
    else (w, .ok none)

/-- A download of the document of a finalized record, or the task after its finalization, in a session of its own. -/
def archiveDetached (p : Printer) (records : Table EvaluationRecord) (docs : Documents) (recordId : Nat) : Documents :=
  match records.get? recordId with
  | none => docs
  | some r =>
    if r.status = .finalized ∧ r.finalSnapshot.isSome = true then
      (archiveDocument p id ⟨docs, docs⟩ r).1.seen
    else docs

/-! ## The sweep -/

def documentBackfillBatch : Nat := 20

/-- What a sweep meets: the order of rows that were finalized together, and the downloads while each is rendered. -/
structure BackfillSweep where
  rank : Nat → Nat
  downloads : Nat → List Nat

/-- The order of the queue, where a missing time comes last. -/
def backfillPlace (rank : Nat → Nat) (r : EvaluationRecord) : WithTop Nat ×ₗ Nat :=
  toLex ((r.finalizedAt : WithTop Nat), rank r.id)

def isBackfillPending (docs : Documents) (r : EvaluationRecord) : Bool :=
  decide (r.status = .finalized) && r.finalSnapshot.isSome && (docs.getDocument r.id).isNone

/-- The finalized records with a snapshot and without a document. -/
def pendingRecords (records : Table EvaluationRecord) (docs : Documents) : List EvaluationRecord :=
  records.rows.filter (isBackfillPending docs)

def pendingQueue (records : Table EvaluationRecord) (docs : Documents) (rank : Nat → Nat) : List EvaluationRecord :=
  (pendingRecords records docs).insertionSort fun a b => backfillPlace rank a ≤ backfillPlace rank b

/-- Archives one record after the other. An exception rolls the inserts of the session back. -/
def archivePending (p : Printer) (records : Table EvaluationRecord) (s : BackfillSweep) :
    List EvaluationRecord → ArchiveSession → Nat → Documents × Except Rendering Nat
  | [], w, created => (w.seen, .ok created)
  | r :: pending, w, created =>
    match archiveDocument p (fun docs => (s.downloads r.id).foldl (archiveDetached p records) docs) w r with
    | (w', .error e) => (w'.committed, .error e)
    | (w', .ok document) => archivePending p records s pending w' (created + if document.isSome then 1 else 0)

/-- `run_document_backfill_sweep`. -/
def runDocumentBackfillSweep (p : Printer) (records : Table EvaluationRecord) (docs : Documents) (s : BackfillSweep) :
    Documents × Except Rendering Nat :=
  if p.weasyprintAvailable then
    archivePending p records s ((pendingQueue records docs s.rank).take documentBackfillBatch) ⟨docs, docs⟩ 0
  else (docs, .ok 0)

end NexaHR
