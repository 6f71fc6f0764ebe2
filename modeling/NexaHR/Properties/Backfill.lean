import NexaHR.Services.Documents
import NexaHR.Routers.Reading
import NexaHR.System.Installation

/-! # The backfill of documents

A sweep renders the first page of the queue. A record whose rendering fails keeps its place, so enough of them at the
head of the queue hold back all that come later; one whose rendering raises takes the work of the page with it.

* `archiveDocument_*`, `archivePending_*`: one record, and the records of a page.
* `Drains`: sweeps make progress, in every run with downloads, and leave nothing that can be rendered.
* `LeavesRoom`: how few failures there are ahead of what can be rendered.
* `backfill_drains_iff`: the two are the same, and no record has two documents.
-/

namespace NexaHR

open Foundations

set_option autoImplicit false

section

variable {p : Printer} {records : Table EvaluationRecord} {docs docs₀ docs' : Documents} {P : Nat → Prop}
  {w : ArchiveSession} {r : EvaluationRecord} {meanwhile : Documents → Documents} {s : BackfillSweep}

/-! ## One record -/

theorem rendering_of_renders (h : p.renders r = true) :
    p.weasyprintAvailable = true ∧ ∃ pdf, p.rendering r = .bytes pdf := by
  unfold Printer.renders at h
  rw [Bool.and_eq_true] at h
  refine ⟨h.1, ?_⟩
  cases hrendering : p.rendering r with
  | bytes pdf => exact ⟨pdf, rfl⟩
  | runtimeError | otherError =>
    rw [hrendering] at h
    cases h.2

theorem renders_of_bytes {pdf : String} (h : p.weasyprintAvailable = true) (hpdf : p.rendering r = .bytes pdf) :
    p.renders r = true := by
  unfold Printer.renders
  rw [h, hpdf]
  rfl

theorem not_renders_of_raises (h : p.raises r = true) : p.renders r = false := by
  unfold Printer.raises at h
  rw [Bool.and_eq_true, decide_eq_true_eq] at h
  unfold Printer.renders
  rw [h.2, Bool.and_false]

theorem archiveDocument_grows (hmeanwhile : ∀ docs, Documents.Grows P docs (meanwhile docs))
    (hr : p.renders r = true → P r.id) :
    Documents.Grows P w.committed (archiveDocument p meanwhile w r).1.committed ∧
      Documents.Grows P w.seen (archiveDocument p meanwhile w r).1.seen := by
  unfold archiveDocument
  split
  · exact ⟨Documents.Grows.refl P _, Documents.Grows.refl P _⟩
  · split
    · next havailable =>
      split
      · exact ⟨hmeanwhile _, hmeanwhile _⟩
      · exact ⟨hmeanwhile _, hmeanwhile _⟩
      · next pdf hpdf =>
        have hP := hr (renders_of_bytes havailable hpdf)
        dsimp only
        split
        · next seen hinsert => exact ⟨hmeanwhile _, (hmeanwhile _).trans (Documents.Grows.of_insert hinsert hP)⟩
        · exact ⟨hmeanwhile _, hmeanwhile _⟩
    · exact ⟨Documents.Grows.refl P _, Documents.Grows.refl P _⟩

/-- A record that can be rendered has its document afterwards, whoever made it. -/
theorem archiveDocument_renders (h : p.renders r = true) :
    (∃ document, (archiveDocument p meanwhile w r).2 = .ok (some document)) ∧
      ((archiveDocument p meanwhile w r).1.seen.getDocument r.id).isSome = true := by
  obtain ⟨havailable, pdf, hpdf⟩ := rendering_of_renders h
  unfold archiveDocument
  split
  · next existing hold => exact ⟨⟨existing, rfl⟩, by rw [hold]; rfl⟩
  · rw [if_pos havailable, hpdf]
    dsimp only
    split
    · next seen hinsert =>
      refine ⟨⟨_, rfl⟩, Documents.getDocument_isSome.mpr ⟨⟨r.id, pdf, p.sha256 pdf⟩, ?_, rfl⟩⟩
      rw [(Documents.insert_eq_some hinsert).2]
      exact List.mem_cons_self
    · next hrefused =>
      have hsome := Documents.insert_eq_none hrefused
      obtain ⟨document, hdocument⟩ := Option.isSome_iff_exists.mp hsome
      exact ⟨⟨document, by rw [hdocument]⟩, hsome⟩

theorem archiveDocument_answers (h : p.raises r = false) :
    ∃ document, (archiveDocument p meanwhile w r).2 = .ok document := by
  unfold archiveDocument
  split
  · exact ⟨_, rfl⟩
  · split
    · next havailable =>
      split
      · exact ⟨_, rfl⟩
      · next hother =>
        unfold Printer.raises at h
        rw [havailable, hother] at h
        cases h
      · dsimp only
        split
        · exact ⟨_, rfl⟩
        · exact ⟨_, rfl⟩
    · exact ⟨_, rfl⟩

theorem archiveDocument_raises (h : p.raises r = true) (hnone : w.seen.getDocument r.id = none) :
    (archiveDocument p meanwhile w r).2 = .error .otherError := by
  unfold Printer.raises at h
  rw [Bool.and_eq_true, decide_eq_true_eq] at h
  unfold archiveDocument
  rw [hnone]
  dsimp only
  rw [if_pos h.1, h.2]

theorem archiveDocument_fails (h : p.renders r = false) (hnone : w.seen.getDocument r.id = none)
    {document : Option EvaluationDocument} (hok : (archiveDocument p meanwhile w r).2 = .ok document) :
    document = none := by
  unfold archiveDocument at hok
  rw [hnone] at hok
  dsimp only at hok
  split at hok
  · next havailable =>
    split at hok
    · cases hok
      rfl
    · cases hok
    · next pdf hpdf =>
      rw [renders_of_bytes havailable hpdf] at h
      cases h
  · cases hok
    rfl

/-- Without the others, the answer is that of the download of the summary. -/
theorem archiveDocument_agrees (backend : Backend) {snapshot : FinalSnapshot} (hsnapshot : r.finalSnapshot = some snapshot)
    (havailable : backend.weasyprintAvailable = p.weasyprintAvailable) (htoken : r.verifyToken ≠ some "")
    (hrender : ∀ url, backend.renderEvaluationSummaryPdf snapshot url =
      match p.renderEvaluationSummaryPdf (some snapshot) url with
      | .bytes pdf => some pdf
      | _ => none)
    (hurl : backend.verifyUrlFor = p.verifyUrlFor) {document : Option EvaluationDocument}
    (hok : (archiveDocument p id ⟨docs, docs⟩ r).2 = .ok document) :
    archiveFinalPdf backend (fun k => (docs.getDocument k).map EvaluationDocument.pdfBytes) r snapshot =
      document.map EvaluationDocument.pdfBytes := by
  have htokens : r.verifyToken.filter (· ≠ "") = r.verifyToken := by
    cases htext : r.verifyToken with
    | none => rfl
    | some token =>
      rw [htext] at htoken
      exact Option.filter_some_pos (by simpa using htoken)
  unfold archiveDocument at hok
  unfold archiveFinalPdf
  dsimp only
  cases hold : docs.getDocument r.id with
  | some existing =>
    rw [hold] at hok
    cases hok
    rfl
  | none =>
    rw [hold] at hok
    rw [Option.map_none, havailable, hrender, hurl, ← hsnapshot, ← htokens]
    dsimp only [id] at hok ⊢
    split at hok
    · next hweasyprint =>
      rw [if_pos hweasyprint]
      unfold Printer.rendering at hok
      split at hok
      · next hfailed =>
        cases hok
        rw [hfailed]
        rfl
      · cases hok
      · next pdf hpdf =>
        rw [hpdf]
        dsimp only
        split at hok
        · cases hok
          rfl
        · next hrefused =>
          have hsome := Documents.insert_eq_none hrefused
          rw [hold] at hsome
          cases hsome
    · next hmissing =>
      cases hok
      rw [if_neg hmissing]
      rfl

/-! ## Downloads -/

/-- The record of the key can be rendered. -/
def IsRenderable (p : Printer) (records : Table EvaluationRecord) (k : Nat) : Prop :=
  ∃ r ∈ records, r.id = k ∧ p.renders r = true

theorem not_isRenderable (hr : r ∈ records) (h : p.renders r = false) : ¬IsRenderable p records r.id := by
  rintro ⟨r', hr', hid, hrenders⟩
  rw [Table.eq_of_id_eq hr' hr hid, h] at hrenders
  cases hrenders

theorem archiveDetached_grows {k : Nat} (hk : IsRenderable p records k → P k) :
    Documents.Grows P docs (archiveDetached p records docs k) := by
  unfold archiveDetached
  split
  · exact Documents.Grows.refl P docs
  · next r hget =>
    split
    · have hid : r.id = k := Table.id_of_get? hget
      refine (@archiveDocument_grows p P ⟨docs, docs⟩ r id (Documents.Grows.refl P) fun hrenders => ?_).2
      rw [hid]
      exact hk ⟨r, Table.mem_of_get? hget, hid, hrenders⟩
    · exact Documents.Grows.refl P docs

theorem archiveDetached_archives (hr : r ∈ records) (hfinal : r.status = .finalized)
    (hsnapshot : r.finalSnapshot.isSome = true) (h : p.renders r = true) :
    ((archiveDetached p records docs r.id).getDocument r.id).isSome = true := by
  have hget : records.get? r.id = some r := Table.get?_of_mem hr
  unfold archiveDetached
  rw [hget]
  dsimp only
  rw [if_pos ⟨hfinal, hsnapshot⟩]
  exact (archiveDocument_renders h).2

theorem downloads_grow (ids : List Nat) (h : ∀ k ∈ ids, IsRenderable p records k → P k) (docs : Documents) :
    Documents.Grows P docs (ids.foldl (archiveDetached p records) docs) := by
  induction ids generalizing docs with
  | nil => exact Documents.Grows.refl P docs
  | cons k ids ih =>
    rw [List.forall_mem_cons] at h
    exact (archiveDetached_grows h.1).trans (ih h.2 _)

/-! ## A page -/

theorem archivePending_cons (pending : List EvaluationRecord) (created : Nat) {w' : ArchiveSession}
    {document : Option EvaluationDocument}
    (h : archiveDocument p (fun docs => (s.downloads r.id).foldl (archiveDetached p records) docs) w r =
      (w', .ok document)) :
    archivePending p records s (r :: pending) w created =
      archivePending p records s pending w' (created + if document.isSome then 1 else 0) := by
  rw [archivePending, h]

theorem archivePending_grows {pending : List EvaluationRecord} (hpending : ∀ r ∈ pending, r ∈ records) (created : Nat)
    (hcommitted : Documents.Grows (IsRenderable p records) docs w.committed)
    (hseen : Documents.Grows (IsRenderable p records) docs w.seen) :
    Documents.Grows (IsRenderable p records) docs (archivePending p records s pending w created).1 := by
  induction pending generalizing w created with
  | nil => exact hseen
  | cons r pending ih =>
    rw [List.forall_mem_cons] at hpending
    have hstep := @archiveDocument_grows p (IsRenderable p records) w r _
      (fun docs => downloads_grow (s.downloads r.id) (fun _ _ hk => hk) docs) fun h => ⟨r, hpending.1, rfl, h⟩
    rw [archivePending]
    split
    · next w' _ harchive =>
      rw [harchive] at hstep
      exact hcommitted.trans hstep.1
    · next w' _ harchive =>
      rw [harchive] at hstep
      exact ih hpending.2 _ (hcommitted.trans hstep.1) (hseen.trans hstep.2)

/-- A page without an exception is archived as far as it can be rendered. -/
theorem archivePending_answers {pending : List EvaluationRecord} (hpending : ∀ r ∈ pending, r ∈ records)
    (hraises : ∀ r ∈ pending, p.raises r = false) (created : Nat) :
    ∃ total, (archivePending p records s pending w created).2 = .ok total ∧ created ≤ total ∧
      ((∃ r ∈ pending, p.renders r = true) → created < total) ∧
      Documents.Grows (IsRenderable p records) w.seen (archivePending p records s pending w created).1 ∧
      ∀ r ∈ pending, p.renders r = true →
        ((archivePending p records s pending w created).1.getDocument r.id).isSome = true := by
  induction pending generalizing w created with
  | nil => exact ⟨created, rfl, Nat.le_refl _, by simp, Documents.Grows.refl _ _, by simp⟩
  | cons r pending ih =>
    rw [List.forall_mem_cons] at hpending hraises
    have hgrows := @archiveDocument_grows p (IsRenderable p records) w r _
      (fun docs => downloads_grow (s.downloads r.id) (fun _ _ hk => hk) docs) fun h => ⟨r, hpending.1, rfl, h⟩
    obtain ⟨document, hok⟩ := @archiveDocument_answers p w r
      (fun docs => (s.downloads r.id).foldl (archiveDetached p records) docs) hraises.1
    have harchive := archivePending_cons pending created (Prod.ext rfl hok)
    rw [harchive]
    obtain ⟨total, htotal, hle, hlt, hlater, harchived⟩ := ih (w := (archiveDocument p _ w r).1) hpending.2 hraises.2
      (created + if document.isSome then 1 else 0)
    refine ⟨total, htotal, by omega, ?_, hgrows.2.trans hlater, ?_⟩
    · rintro ⟨r', hr', hrenders⟩
      rcases List.mem_cons.mp hr' with rfl | hr'
      · obtain ⟨⟨d, hd⟩, -⟩ := @archiveDocument_renders p w r'
          (fun docs => (s.downloads r'.id).foldl (archiveDetached p records) docs) hrenders
        rw [hok] at hd
        cases hd
        simp at hle
        omega
      · have hmore := hlt ⟨r', hr', hrenders⟩
        omega
    · rw [List.forall_mem_cons]
      refine ⟨fun hrenders => hlater.archived (archiveDocument_renders hrenders).2, harchived⟩

/-- An exception on the page is not caught. -/
theorem archivePending_raises {pending : List EvaluationRecord} (hpending : ∀ r ∈ pending, r ∈ records) (created : Nat)
    (hr : r ∈ pending) (hraises : p.raises r = true) (hnone : w.seen.getDocument r.id = none) :
    ∀ total, (archivePending p records s pending w created).2 ≠ .ok total := by
  induction pending generalizing w created with
  | nil => cases hr
  | cons r' pending ih =>
    rw [List.forall_mem_cons] at hpending
    intro total
    rw [archivePending]
    split
    · next => exact nofun
    · next w' document harchive =>
      rcases List.mem_cons.mp hr with rfl | hr
      · have herror := @archiveDocument_raises p w r
          (fun docs => (s.downloads r.id).foldl (archiveDetached p records) docs) hraises hnone
        rw [harchive] at herror
        cases herror
      · have hgrows := @archiveDocument_grows p (IsRenderable p records) w r' _
          (fun docs => downloads_grow (s.downloads r'.id) (fun _ _ hk => hk) docs) fun h => ⟨r', hpending.1, rfl, h⟩
        rw [harchive] at hgrows
        refine ih hpending.2 _ hr ?_ total
        exact hgrows.2.not_archived (not_isRenderable (hpending.2 r hr) (not_renders_of_raises hraises)) hnone

/-- A page on which nothing can be rendered counts nothing. -/
theorem archivePending_fails {pending : List EvaluationRecord} (hpending : ∀ r ∈ pending, r ∈ records) {created : Nat}
    (hfails : ∀ r ∈ pending, p.renders r = false) (hnone : ∀ r ∈ pending, w.seen.getDocument r.id = none) {total : Nat}
    (h : (archivePending p records s pending w created).2 = .ok total) : total = created := by
  induction pending generalizing w created with
  | nil =>
    cases h
    rfl
  | cons r pending ih =>
    rw [List.forall_mem_cons] at hpending hfails hnone
    have hgrows := @archiveDocument_grows p (IsRenderable p records) w r _
      (fun docs => downloads_grow (s.downloads r.id) (fun _ _ hk => hk) docs) fun h => ⟨r, hpending.1, rfl, h⟩
    rw [archivePending] at h
    split at h
    · cases h
    · next w' document harchive =>
      rw [harchive] at hgrows
      have hdocument : document = none := archiveDocument_fails hfails.1 hnone.1 (congrArg Prod.snd harchive)
      rw [hdocument] at h
      refine ih hpending.2 hfails.2 (fun r' hr' => ?_) h
      exact hgrows.2.not_archived (not_isRenderable (hpending.2 r' hr') (hfails.2 r' hr')) (hnone.2 r' hr')

/-! ## A sweep -/

/-- The page of a sweep. -/
def sweepPage (records : Table EvaluationRecord) (docs : Documents) (rank : Nat → Nat) : List EvaluationRecord :=
  (pendingQueue records docs rank).take documentBackfillBatch

theorem mem_pendingRecords : r ∈ pendingRecords records docs ↔ r ∈ records ∧ isBackfillPending docs r = true :=
  List.mem_filter

theorem mem_pendingQueue {rank : Nat → Nat} : r ∈ pendingQueue records docs rank ↔ r ∈ pendingRecords records docs :=
  List.mem_insertionSort _

theorem sorted_pendingQueue (rank : Nat → Nat) : Sorted (backfillPlace rank) (pendingQueue records docs rank) := by
  have : Std.Total fun a b => backfillPlace rank a ≤ backfillPlace rank b :=
    ⟨fun a b => le_total (backfillPlace rank a) (backfillPlace rank b)⟩
  have : IsTrans EvaluationRecord fun a b => backfillPlace rank a ≤ backfillPlace rank b := ⟨fun _ _ _ h h' => h.trans h'⟩
  exact List.pairwise_insertionSort _ _

theorem countP_pendingQueue (rank : Nat → Nat) (q : EvaluationRecord → Bool) :
    (pendingQueue records docs rank).countP q = (pendingRecords records docs).countP q :=
  (List.perm_insertionSort _ _).countP_eq q

theorem mem_sweepPage {rank : Nat → Nat} (h : r ∈ sweepPage records docs rank) : r ∈ pendingRecords records docs :=
  mem_pendingQueue.mp (List.mem_of_mem_take h)

theorem getDocument_of_pending (h : r ∈ pendingRecords records docs) : docs.getDocument r.id = none := by
  have hpending := (mem_pendingRecords.mp h).2
  unfold isBackfillPending at hpending
  rw [Bool.and_eq_true, Option.isNone_iff_eq_none] at hpending
  exact hpending.2

/-- The sweep is answered with documents. -/
def Archives (p : Printer) (records : Table EvaluationRecord) (docs : Documents) (s : BackfillSweep) : Prop :=
  ∃ created, (runDocumentBackfillSweep p records docs s).2 = .ok created ∧ 0 < created

theorem sweep_grows (s : BackfillSweep) :
    Documents.Grows (IsRenderable p records) docs (runDocumentBackfillSweep p records docs s).1 := by
  unfold runDocumentBackfillSweep
  split
  · exact archivePending_grows (fun r hr => (mem_pendingRecords.mp (mem_sweepPage hr)).1) 0
      (Documents.Grows.refl _ _) (Documents.Grows.refl _ _)
  · exact Documents.Grows.refl _ _

/-- It is so exactly when something on its page can be rendered and nothing raises. -/
theorem archives_iff : Archives p records docs s ↔
    (∃ r ∈ sweepPage records docs s.rank, p.renders r = true) ∧
      ∀ r ∈ sweepPage records docs s.rank, p.raises r = false := by
  have hpage : ∀ r ∈ sweepPage records docs s.rank, r ∈ records :=
    fun r hr => (mem_pendingRecords.mp (mem_sweepPage hr)).1
  have hnone : ∀ r ∈ sweepPage records docs s.rank, docs.getDocument r.id = none :=
    fun r hr => getDocument_of_pending (mem_sweepPage hr)
  unfold Archives runDocumentBackfillSweep
  by_cases havailable : p.weasyprintAvailable = true
  · rw [if_pos havailable]
    constructor
    · rintro ⟨created, hcreated, hpos⟩
      constructor
      · by_contra hfails
        push Not at hfails
        have hzero := archivePending_fails hpage (fun r hr => by simpa using hfails r hr) hnone hcreated
        omega
      · intro r hr
        by_contra hraises
        exact archivePending_raises hpage 0 hr (by simpa using hraises) (hnone r hr) created hcreated
    · rintro ⟨hrenders, hraises⟩
      obtain ⟨total, htotal, -, hlt, -⟩ := @archivePending_answers p records ⟨docs, docs⟩ s _ hpage hraises 0
      exact ⟨total, htotal, hlt hrenders⟩
  · rw [if_neg havailable]
    constructor
    · rintro ⟨created, hcreated, hpos⟩
      cases hcreated
      omega
    · rintro ⟨⟨r, -, hrenders⟩, -⟩
      exact absurd (rendering_of_renders hrenders).1 havailable

/-- Then a document of the page is there afterwards. -/
theorem archived_of_archives (h : Archives p records docs s) : ∃ r ∈ pendingRecords records docs, p.renders r = true ∧
    ((runDocumentBackfillSweep p records docs s).1.getDocument r.id).isSome = true := by
  obtain ⟨⟨r, hr, hrenders⟩, hraises⟩ := archives_iff.mp h
  refine ⟨r, mem_sweepPage hr, hrenders, ?_⟩
  unfold runDocumentBackfillSweep
  rw [if_pos (rendering_of_renders hrenders).1]
  obtain ⟨-, -, -, -, -, harchived⟩ := @archivePending_answers p records ⟨docs, docs⟩ s
    (sweepPage records docs s.rank) (fun r hr => (mem_pendingRecords.mp (mem_sweepPage hr)).1) hraises 0
  exact harchived r hr hrenders

end

/-! ## Runs -/

inductive BackfillEvent
  | sweep (s : BackfillSweep)
  | archive (recordId : Nat)

namespace BackfillEvent

def isSweep : BackfillEvent → Bool
  | sweep _ => true
  | archive _ => false

def apply (p : Printer) (records : Table EvaluationRecord) (docs : Documents) : BackfillEvent → Documents
  | sweep s => (runDocumentBackfillSweep p records docs s).1
  | archive recordId => archiveDetached p records docs recordId

end BackfillEvent

/-- Sweeps and downloads in any order, from the documents there are. -/
def BackfillRun (p : Printer) (records : Table EvaluationRecord) (docs₀ : Documents) :
    List (Taken Documents BackfillEvent) → Documents → Prop :=
  Run (· = docs₀) fun docs e docs' => docs' = e.apply p records docs

/-- While something pending can be rendered, a sweep archives something, and after enough sweeps nothing is left. -/
structure Drains (p : Printer) (records : Table EvaluationRecord) (docs₀ : Documents) : Prop where
  progress : ∀ tr docs, BackfillRun p records docs₀ tr docs →
    (∃ r ∈ pendingRecords records docs, p.renders r = true) → ∀ s, Archives p records docs s
  archived : ∃ n, ∀ tr docs, BackfillRun p records docs₀ tr docs → n ≤ tr.countP (fun x => x.label.isSweep) →
    ∀ r ∈ pendingRecords records docs, p.renders r = false

def finalizedKey (r : EvaluationRecord) : WithTop Nat := r.finalizedAt

/-- Fewer than a page of failures are not behind a record that can be rendered. None of them raises, unless a page
less one of others is ahead of it. -/
structure LeavesRoom (p : Printer) (records : Table EvaluationRecord) (docs : Documents) : Prop where
  fits : ∀ x ∈ pendingRecords records docs, p.renders x = true →
    ((pendingRecords records docs).countP fun z => !p.renders z && decide (finalizedKey z ≤ finalizedKey x)) <
      documentBackfillBatch
  harmless : (∃ x ∈ pendingRecords records docs, p.renders x = true) →
    ∀ y ∈ pendingRecords records docs, p.raises y = true → documentBackfillBatch ≤
      ((pendingRecords records docs).countP fun z => !p.renders z && decide (finalizedKey z < finalizedKey y)) + 1

section

variable {p : Printer} {records : Table EvaluationRecord} {docs docs₀ : Documents} {r : EvaluationRecord}
  {tr : List (Taken Documents BackfillEvent)} {s : BackfillSweep}

theorem event_grows (e : BackfillEvent) : Documents.Grows (IsRenderable p records) docs (e.apply p records docs) := by
  cases e with
  | sweep s => exact sweep_grows s
  | archive recordId => exact archiveDetached_grows id

theorem run_grows (h : BackfillRun p records docs₀ tr docs) : Documents.Grows (IsRenderable p records) docs₀ docs := by
  refine Run.relates (Documents.Grows.refl _) (fun _ _ _ h h' => h.trans h') ?_ h
  rintro docs e _ rfl
  exact event_grows e

/-! ## What stays pending -/

theorem pending_of_grows {P : Nat → Prop} {docs' : Documents} (h : Documents.Grows P docs docs')
    (hr : r ∈ pendingRecords records docs') : r ∈ pendingRecords records docs := by
  obtain ⟨hmem, hpending⟩ := mem_pendingRecords.mp hr
  refine mem_pendingRecords.mpr ⟨hmem, ?_⟩
  unfold isBackfillPending at hpending ⊢
  rw [Bool.and_eq_true, Option.isNone_iff_eq_none] at hpending ⊢
  refine ⟨hpending.1, ?_⟩
  by_contra hsome
  have harchived := h.archived (Option.isSome_iff_ne_none.mpr hsome)
  rw [hpending.2] at harchived
  cases harchived

theorem pending_of_not_archived {P : Nat → Prop} {docs' : Documents} (h : Documents.Grows P docs docs')
    (hP : ¬P r.id) (hr : r ∈ pendingRecords records docs) : r ∈ pendingRecords records docs' := by
  have hnone := h.not_archived hP (getDocument_of_pending hr)
  obtain ⟨hmem, hpending⟩ := mem_pendingRecords.mp hr
  refine mem_pendingRecords.mpr ⟨hmem, ?_⟩
  unfold isBackfillPending at hpending ⊢
  rw [Bool.and_eq_true, Option.isNone_iff_eq_none] at hpending ⊢
  exact ⟨hpending.1, hnone⟩

/-- The failures are the same all along. -/
theorem countP_failures {docs' : Documents} (h : Documents.Grows (IsRenderable p records) docs docs')
    (q : EvaluationRecord → Bool) :
    (pendingRecords records docs').countP (fun z => !p.renders z && q z) =
      (pendingRecords records docs).countP fun z => !p.renders z && q z := by
  unfold pendingRecords
  rw [List.countP_filter, List.countP_filter]
  refine List.countP_congr fun z hz => ?_
  simp only [Bool.and_eq_true, Bool.not_eq_true']
  constructor
  · rintro ⟨⟨hfails, hq⟩, hpending⟩
    exact ⟨⟨hfails, hq⟩, (mem_pendingRecords.mp (pending_of_grows h (mem_pendingRecords.mpr ⟨hz, hpending⟩))).2⟩
  · rintro ⟨⟨hfails, hq⟩, hpending⟩
    have hnot := not_isRenderable hz hfails
    exact ⟨⟨hfails, hq⟩,
      (mem_pendingRecords.mp (pending_of_not_archived h hnot (mem_pendingRecords.mpr ⟨hz, hpending⟩))).2⟩

/-- Room that there was is there later. -/
theorem LeavesRoom.later (h : LeavesRoom p records docs₀) (hgrows : Documents.Grows (IsRenderable p records) docs₀ docs) :
    LeavesRoom p records docs where
  fits := by
    intro x hx hrenders
    rw [countP_failures hgrows]
    exact h.fits x (pending_of_grows hgrows hx) hrenders
  harmless := by
    rintro ⟨x, hx, hrenders⟩ y hy hraises
    rw [countP_failures hgrows]
    exact h.harmless ⟨x, pending_of_grows hgrows hx, hrenders⟩ y (pending_of_grows hgrows hy) hraises

/-! ## Room is enough -/

theorem finalizedKey_le_of_place {rank : Nat → Nat} {a b : EvaluationRecord}
    (h : backfillPlace rank a ≤ backfillPlace rank b) : finalizedKey a ≤ finalizedKey b := by
  rcases Prod.Lex.le_iff.mp h with hlt | ⟨heq, -⟩
  · exact le_of_lt hlt
  · exact le_of_eq heq

theorem place_lt_of_finalizedKey {rank : Nat → Nat} {a b : EvaluationRecord} (h : finalizedKey a < finalizedKey b) :
    backfillPlace rank a < backfillPlace rank b :=
  Prod.Lex.lt_iff.mpr (Or.inl h)

theorem archives_of_room (h : LeavesRoom p records docs)
    (hpending : ∃ r ∈ pendingRecords records docs, p.renders r = true) (s : BackfillSweep) :
    Archives p records docs s := by
  have hsorted := @sorted_pendingQueue records docs s.rank
  obtain ⟨x, hx, hrenders⟩ := hpending
  have hfew : ((pendingQueue records docs s.rank).countP fun z =>
      !p.renders z && decide (backfillPlace s.rank z ≤ backfillPlace s.rank x)) < documentBackfillBatch := by
    refine Nat.lt_of_le_of_lt ?_ (h.fits x hx hrenders)
    rw [countP_pendingQueue]
    refine List.countP_mono_left fun z _ hz => ?_
    rw [Bool.and_eq_true, decide_eq_true_eq] at hz ⊢
    exact ⟨hz.1, finalizedKey_le_of_place hz.2⟩
  obtain ⟨x', hx', hrenders'⟩ := hsorted.exists_doable_in_page (mem_pendingQueue.mpr hx) hrenders hfew
  refine archives_iff.mpr ⟨⟨x', hx', hrenders'⟩, fun y hy => ?_⟩
  by_contra hraises
  rw [Bool.not_eq_false] at hraises
  have hlt := hsorted.lasting_ahead_lt hx' hrenders' hy (not_renders_of_raises hraises)
  have hmany := h.harmless ⟨x, hx, hrenders⟩ y (mem_sweepPage hy) hraises
  have hle : ((pendingRecords records docs).countP fun z =>
      !p.renders z && decide (finalizedKey z < finalizedKey y)) ≤
      (pendingQueue records docs s.rank).countP fun z =>
        !p.renders z && decide (backfillPlace s.rank z < backfillPlace s.rank y) := by
    rw [countP_pendingQueue]
    refine List.countP_mono_left fun z _ hz => ?_
    rw [Bool.and_eq_true, decide_eq_true_eq] at hz ⊢
    exact ⟨hz.1, place_lt_of_finalizedKey hz.2⟩
  omega

/-- The pending records that can be rendered. -/
def renderableCount (p : Printer) (records : Table EvaluationRecord) (docs : Documents) : Nat :=
  (pendingRecords records docs).countP p.renders

theorem renderableCount_le {P : Nat → Prop} {docs' : Documents} (h : Documents.Grows P docs docs') :
    renderableCount p records docs' ≤ renderableCount p records docs := by
  unfold renderableCount pendingRecords
  rw [List.countP_filter, List.countP_filter]
  refine List.countP_mono_left fun z hz hboth => ?_
  rw [Bool.and_eq_true] at hboth ⊢
  exact ⟨hboth.1, (mem_pendingRecords.mp (pending_of_grows h (mem_pendingRecords.mpr ⟨hz, hboth.2⟩))).2⟩

theorem renderableCount_lt {P : Nat → Prop} {docs' : Documents} (h : Documents.Grows P docs docs')
    (hr : r ∈ pendingRecords records docs) (hrenders : p.renders r = true)
    (harchived : (docs'.getDocument r.id).isSome = true) :
    renderableCount p records docs' < renderableCount p records docs := by
  have hgone : r ∉ pendingRecords records docs' := by
    intro hr'
    rw [getDocument_of_pending hr'] at harchived
    cases harchived
  have hsub : ∀ z ∈ records.rows, isBackfillPending docs' z = true → isBackfillPending docs z = true :=
    fun z hz hpending => (mem_pendingRecords.mp (pending_of_grows h (mem_pendingRecords.mpr ⟨hz, hpending⟩))).2
  have hnot : isBackfillPending docs' r = false := by
    rw [← Bool.not_eq_true]
    exact fun hpending => hgone (mem_pendingRecords.mpr ⟨(mem_pendingRecords.mp hr).1, hpending⟩)
  unfold renderableCount pendingRecords
  obtain ⟨before, after, hsplit⟩ := List.append_of_mem (mem_pendingRecords.mp hr).1
  have hbefore : before.countP (fun z => p.renders z && isBackfillPending docs' z) ≤
      before.countP fun z => p.renders z && isBackfillPending docs z := by
    refine List.countP_mono_left fun z hz hboth => ?_
    rw [Bool.and_eq_true] at hboth ⊢
    exact ⟨hboth.1, hsub z (by simp [hsplit, hz]) hboth.2⟩
  have hafter : after.countP (fun z => p.renders z && isBackfillPending docs' z) ≤
      after.countP fun z => p.renders z && isBackfillPending docs z := by
    refine List.countP_mono_left fun z hz hboth => ?_
    rw [Bool.and_eq_true] at hboth ⊢
    exact ⟨hboth.1, hsub z (by simp [hsplit, hz]) hboth.2⟩
  rw [List.countP_filter, List.countP_filter, hsplit, List.countP_append, List.countP_append,
    List.countP_cons_of_neg (by simp [hnot]),
    List.countP_cons_of_pos (by rw [hrenders, (mem_pendingRecords.mp hr).2]; rfl)]
  omega

/-- Each sweep takes one away, until none is left. -/
theorem renderableCount_run (hroom : LeavesRoom p records docs₀) (h : BackfillRun p records docs₀ tr docs) :
    renderableCount p records docs = 0 ∨
      renderableCount p records docs + tr.countP (fun x => x.label.isSweep) ≤ renderableCount p records docs₀ := by
  induction h with
  | nil hs =>
    subst hs
    exact Or.inr (Nat.le_refl _)
  | @cons tr docs e docs' hrun hstep ih =>
    subst hstep
    have hgrows := @event_grows p records docs e
    have hle := @renderableCount_le p records docs _ _ hgrows
    by_cases hzero : renderableCount p records docs = 0
    · left
      omega
    · have hcount := ih.resolve_left hzero
      cases e with
      | archive recordId =>
        right
        rw [List.countP_cons_of_neg (by simp [BackfillEvent.isSweep])]
        omega
      | sweep s =>
        right
        obtain ⟨x, hx, hrenders⟩ := List.countP_pos_iff.mp (Nat.pos_of_ne_zero hzero)
        have harchives := archives_of_room (hroom.later (run_grows hrun)) ⟨x, hx, hrenders⟩ s
        obtain ⟨r, hr, hrenders, harchived⟩ := archived_of_archives harchives
        have hlt : renderableCount p records ((BackfillEvent.sweep s).apply p records docs) <
            renderableCount p records docs := renderableCount_lt hgrows hr hrenders harchived
        rw [List.countP_cons_of_pos (by simp [BackfillEvent.isSweep])]
        omega

theorem drains_of_room (h : LeavesRoom p records docs₀) : Drains p records docs₀ where
  progress := fun _ _ hrun hpending s => archives_of_room (h.later (run_grows hrun)) hpending s
  archived := by
    refine ⟨renderableCount p records docs₀, fun tr docs hrun hsweeps r hr => ?_⟩
    have hzero : renderableCount p records docs = 0 := by
      rcases renderableCount_run h hrun with hzero | hle
      · exact hzero
      · omega
    simpa using List.countP_eq_zero.mp hzero r hr

/-! ## Room is needed -/

/-- Downloads can leave a single record that can be rendered. -/
theorem exists_lonely {x : EvaluationRecord} (hx : x ∈ pendingRecords records docs₀) :
    ∃ tr docs, BackfillRun p records docs₀ tr docs ∧ x ∈ pendingRecords records docs ∧
      ∀ r ∈ pendingRecords records docs, p.renders r = true → r = x := by
  have hruns : ∀ ids : List Nat, x.id ∉ ids → ∃ tr docs, BackfillRun p records docs₀ tr docs ∧
      Documents.Grows (fun k => k ≠ x.id) docs₀ docs ∧
      ∀ r ∈ pendingRecords records docs, p.renders r = true → r.id ∉ ids := by
    intro ids
    induction ids with
    | nil => exact fun _ => ⟨[], docs₀, Run.nil rfl, Documents.Grows.refl _ _, fun _ _ _ => List.not_mem_nil⟩
    | cons k ids ih =>
      intro hnot
      rw [List.mem_cons, not_or] at hnot
      obtain ⟨tr, docs, hrun, hgrows, hleft⟩ := ih hnot.2
      have hstep : Documents.Grows (fun k => k ≠ x.id) docs (archiveDetached p records docs k) :=
        archiveDetached_grows fun _ => Ne.symm hnot.1
      have hrun' : BackfillRun p records docs₀ (⟨docs, .archive k, archiveDetached p records docs k⟩ :: tr)
          (archiveDetached p records docs k) := Run.cons hrun rfl
      refine ⟨_, _, hrun', hgrows.trans hstep, fun r hr hrenders => ?_⟩
      rw [List.mem_cons, not_or]
      refine ⟨?_, hleft r (pending_of_grows hstep hr) hrenders⟩
      rintro rfl
      have hpending := (mem_pendingRecords.mp hr).2
      unfold isBackfillPending at hpending
      rw [Bool.and_eq_true, Bool.and_eq_true, decide_eq_true_eq] at hpending
      have harchived := @archiveDetached_archives p records docs r (mem_pendingRecords.mp hr).1 hpending.1.1
        hpending.1.2 hrenders
      have hnone := getDocument_of_pending hr
      rw [hnone] at harchived
      cases harchived
  obtain ⟨tr, docs, hrun, hgrows, hleft⟩ := hruns ((records.rows.map HasId.id).filter fun k => k ≠ x.id)
    (by simp)
  refine ⟨tr, docs, hrun, pending_of_not_archived hgrows (fun hne => hne rfl) hx, fun r hr hrenders => ?_⟩
  have hid : r.id = x.id := by
    by_contra hne
    have hmem := (mem_pendingRecords.mp hr).1
    exact hleft r hr hrenders (List.mem_filter.mpr ⟨List.mem_map.mpr ⟨r, hmem, rfl⟩, by simpa using hne⟩)
  exact Table.eq_of_id_eq (mem_pendingRecords.mp hr).1 (mem_pendingRecords.mp hx).1 hid

/-- Ties may go against the record that can be rendered. -/
theorem fits_of_lonely {x : EvaluationRecord} (hx : x ∈ pendingRecords records docs) (hrenders : p.renders x = true)
    (hlonely : ∀ r ∈ pendingRecords records docs, p.renders r = true → r = x)
    (harchives : Archives p records docs ⟨fun k => if k = x.id then 1 else 0, fun _ => []⟩) :
    ((pendingRecords records docs).countP fun z => !p.renders z && decide (finalizedKey z ≤ finalizedKey x)) <
      documentBackfillBatch := by
  obtain ⟨⟨r, hr, hrrenders⟩, -⟩ := archives_iff.mp harchives
  cases hlonely r (mem_sweepPage hr) hrrenders
  refine Nat.lt_of_le_of_lt ?_ ((sorted_pendingQueue _).countP_lt_of_mem_page hr)
  rw [countP_pendingQueue]
  refine List.countP_mono_left fun z hz hboth => ?_
  rw [Bool.and_eq_true, decide_eq_true_eq, Bool.not_eq_true'] at hboth
  rw [decide_eq_true_eq]
  have hne : z.id ≠ x.id := by
    intro hid
    rw [Table.eq_of_id_eq (mem_pendingRecords.mp hz).1 (mem_pendingRecords.mp hx).1 hid, hrenders] at hboth
    cases hboth.1
  refine Prod.Lex.lt_iff.mpr ?_
  rcases lt_or_eq_of_le hboth.2 with hlt | heq
  · exact Or.inl hlt
  · refine Or.inr ⟨heq, ?_⟩
    simp [backfillPlace, hne]

theorem countP_le_of_cover {α : Type} {l : List α} {a b c : α → Bool} (h : ∀ z ∈ l, a z = true → b z = true ∨ c z = true) :
    l.countP a ≤ l.countP b + l.countP c := by
  induction l with
  | nil => exact Nat.zero_le _
  | cons z l ih =>
    rw [List.forall_mem_cons] at h
    have hrest := ih h.2
    have hz := h.1
    simp only [List.countP_cons]
    cases ha : a z <;> cases hb : b z <;> cases hc : c z <;> simp_all <;> omega

/-- Ties may go in favour of the record that raises. -/
theorem harmless_of_lonely {x y : EvaluationRecord}
    (hlonely : ∀ r ∈ pendingRecords records docs, p.renders r = true → r = x) (hy : y ∈ pendingRecords records docs)
    (hraises : p.raises y = true)
    (harchives : Archives p records docs ⟨fun k => if k = y.id then 0 else 1, fun _ => []⟩) :
    documentBackfillBatch ≤
      ((pendingRecords records docs).countP fun z => !p.renders z && decide (finalizedKey z < finalizedKey y)) + 1 := by
  by_contra hfew
  have hnodup : (pendingRecords records docs).Nodup := (List.Nodup.of_map _ records.nodup).filter _
  have hpair : (pendingRecords records docs).countP (fun z => decide (z = x ∨ z = y)) ≤ 2 := by
    have hcover := @countP_le_of_cover _ (pendingRecords records docs) (fun z => decide (z = x ∨ z = y))
      (fun z => z == x) (fun z => z == y) (by simp)
    have hone : ∀ z, (pendingRecords records docs).countP (fun z' => z' == z) ≤ 1 := List.nodup_iff_count_le_one.mp hnodup
    have hx1 := hone x
    have hy1 := hone y
    omega
  have hpage : y ∈ sweepPage records docs fun k => if k = y.id then 0 else 1 := by
    refine (sorted_pendingQueue _).mem_page_of_countP_le (mem_pendingQueue.mpr hy) ?_
    rw [countP_pendingQueue]
    have hcover := @countP_le_of_cover _ (pendingRecords records docs)
      (fun z => decide (backfillPlace (fun k => if k = y.id then 0 else 1) z ≤
        backfillPlace (fun k => if k = y.id then 0 else 1) y))
      (fun z => !p.renders z && decide (finalizedKey z < finalizedKey y)) (fun z => decide (z = x ∨ z = y)) ?_
    · omega
    intro z hz hle
    rw [decide_eq_true_eq] at hle
    rw [Bool.and_eq_true, decide_eq_true_eq, decide_eq_true_eq, Bool.not_eq_true']
    by_cases hrenders : p.renders z = true
    · exact Or.inr (Or.inl (hlonely z hz hrenders))
    · rcases Prod.Lex.le_iff.mp hle with hlt | ⟨-, hrank⟩
      · exact Or.inl ⟨by simpa using hrenders, hlt⟩
      · right
        right
        have hid : z.id = y.id := by
          by_contra hne
          simp [backfillPlace, hne] at hrank
        exact Table.eq_of_id_eq (mem_pendingRecords.mp hz).1 (mem_pendingRecords.mp hy).1 hid
  have hquiet := (archives_iff.mp harchives).2 y hpage
  rw [hraises] at hquiet
  cases hquiet

theorem room_of_progress (h : ∀ tr docs, BackfillRun p records docs₀ tr docs →
      (∃ r ∈ pendingRecords records docs, p.renders r = true) → ∀ s, Archives p records docs s) :
    LeavesRoom p records docs₀ where
  fits := by
    intro x hx hrenders
    obtain ⟨tr, docs, hrun, hpending, hlonely⟩ := exists_lonely hx
    rw [← countP_failures (run_grows hrun)]
    exact fits_of_lonely hpending hrenders hlonely (h tr docs hrun ⟨x, hpending, hrenders⟩ _)
  harmless := by
    rintro ⟨x, hx, hrenders⟩ y hy hraises
    obtain ⟨tr, docs, hrun, hpending, hlonely⟩ := exists_lonely hx
    rw [← countP_failures (run_grows hrun)]
    have hnot := not_isRenderable (mem_pendingRecords.mp hy).1 (not_renders_of_raises hraises)
    exact harmless_of_lonely hlonely (pending_of_not_archived (run_grows hrun) hnot hy) hraises
      (h tr docs hrun ⟨x, hpending, hrenders⟩ _)

/-- Whatever renders and whatever is downloaded meanwhile: the backfill drains exactly when the failures leave room,
and no record ever has two documents. -/
theorem backfill_drains_iff (p : Printer) (records : Table EvaluationRecord) (docs₀ : Documents) :
    (Drains p records docs₀ ↔ LeavesRoom p records docs₀) ∧
      ∀ tr docs, BackfillRun p records docs₀ tr docs → (∀ d ∈ docs₀.rows, d ∈ docs.rows) ∧
        ∀ d ∈ docs.rows, ∀ d' ∈ docs.rows, d.evaluationRecordId = d'.evaluationRecordId → d = d' :=
  ⟨⟨fun h => room_of_progress h.progress, drains_of_room⟩,
    fun _ _ hrun => ⟨(run_grows hrun).kept, fun _ hd _ hd' => Documents.eq_of_record_eq hd hd'⟩⟩

end

/-! ## A blocked queue -/

def snapshotOf (version : Nat) : FinalSnapshot where
  snapshotVersion := version
  personnel := ⟨"E", "P", "J", "U"⟩
  evaluator := ⟨none, none, ""⟩
  singleDecider := false
  signatories := []
  selfAssessment := none
  evaluationStartedAt := 0
  evaluationCode := "EV"
  generalScorePct := none
  specializedScorePct := none
  finalWeightedPct := none
  baseWeightedPct := none
  bonusPoints := none
  bonusReason := none
  recommendation := none
  evaluatorComment := none
  scores := []
  comments := []
  finalizedAt := none

/-- The first twenty records have old snapshots. -/
def agingRecord (id : Nat) : EvaluationRecord :=
  { evaluationOf id 1 with
    finalizedAt := some id
    finalSnapshot := some (snapshotOf (if id ≤ 20 then 1 else 2)) }

def agingRecords : Table EvaluationRecord :=
  Table.ofRows ((List.range 21).map fun k => agingRecord (k + 1)) (by decide)

/-- Old snapshots cannot be rendered any more. -/
def newPrinter : Printer where
  weasyprintAvailable := true
  renderEvaluationSummaryPdf := fun snapshot _ =>
    if snapshot.any fun snapshot => snapshot.snapshotVersion = 2 then .bytes "%PDF" else .runtimeError
  verifyUrlFor := id
  sha256 := id

/-- No document is ever made of the last record. -/
theorem old_snapshots_block : ¬∀ p records docs₀, Drains p records docs₀ := by
  intro hclaim
  have hroom := room_of_progress (hclaim newPrinter agingRecords ⟨[], List.nodup_nil⟩).progress
  have hlast : agingRecord 21 ∈ agingRecords := Table.mem_of_get? (k := 21) (by decide)
  have hfits := hroom.fits (agingRecord 21) (mem_pendingRecords.mpr ⟨hlast, by decide⟩) (by decide)
  revert hfits
  decide

end NexaHR
