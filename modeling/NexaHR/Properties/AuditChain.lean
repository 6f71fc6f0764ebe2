import Mathlib.Data.List.Induction
import NexaHR.System.AuditRuns

/-! # The hash chain of the audit log

A log that `log_event` wrote is found in order, and every other log that is made from it is not, as long as
all the values that were logged come back from their columns as the same JSON. A float from ten to the
sixteenth on, a negative zero, or numbers for keys that sort differently as texts do not.

* `Tampered`: what is done to a log by someone who cannot compute hashes.
* `tampered_not_linked`: the chain then breaks.
* `AnchorSound`, `anchorSound_of_run`: the anchor of a run is the end of a log that was in order.
* `sinceAnchor_same`: behind an untouched beginning, both verifications find the same.
* `chain_holds_iff`: all of it holds of a log exactly when its calls are stable.
* `negative_zero_breaks_chain`: the special score -0.0 breaks the chain that it is logged in.
-/

namespace NexaHR.AuditChain

open Foundations

set_option autoImplicit false

/-! ## Tampering -/

/-- The row is what `log_event` would write next. -/
def CarriesOn (hash : String → String) (log : List Body) (b : Body) : Prop :=
  b.hashed.prevHash = lastDigest (chaining hash) genesisHash log ∧ hash b.hashed.text = b.entryHash

/-- Another log is made from a log without computing the later hashes again: a row is edited in what is
hashed of it, a row comes in, a row other than the last is removed, or the rows are put into another order.
Behind the last row no hash needs to be computed again: it is edited under its own, and the row that comes
in behind it does not carry on the chain. -/
inductive Tampered (hash : String → String) (log : List Body) : List Body → Prop
  | edited (pre post : List Body) (b b' : Body) (hlog : log = pre ++ b :: post)
      (hplace : post ≠ [] ∨ b'.entryHash = b.entryHash) (hedited : b'.hashed ≠ b.hashed) :
      Tampered hash log (pre ++ b' :: post)
  | inserted (pre post : List Body) (b : Body) (hlog : log = pre ++ post)
      (hplace : post ≠ [] ∨ ¬CarriesOn hash log b) : Tampered hash log (pre ++ b :: post)
  | removed (pre post : List Body) (b : Body) (hlog : log = pre ++ b :: post) (hplace : post ≠ []) :
      Tampered hash log (pre ++ post)
  | reordered (log' : List Body) (hperm : log'.Perm log) (horder : log' ≠ log) : Tampered hash log log'

section

variable {hash : String → String} {log log' : List Body}

/-- Rows that carry their own hashes are told by their contents. -/
theorem body_eq_of_hashed (h : Linked (chaining hash) genesisHash log) {b b' : Body} (hb : b ∈ log)
    (hb' : b' ∈ log) (heq : b.hashed = b'.hashed) : b = b' := by
  have hdigest : hash b.hashed.text = b.entryHash := h.hash_eq hb
  have hdigest' : hash b'.hashed.text = b'.entryHash := h.hash_eq hb'
  rw [heq, hdigest'] at hdigest
  obtain ⟨hashed, entryHash⟩ := b
  obtain ⟨hashed', entryHash'⟩ := b'
  simp only at heq hdigest
  rw [heq, hdigest]

theorem tampered_not_linked (hfree : CollisionFreeHash hash) (h : Linked (chaining hash) genesisHash log)
    (htampered : Tampered hash log log') : ¬Linked (chaining hash) genesisHash log' := by
  have hchain := hfree.chaining
  cases htampered with
  | edited pre post b b' hlog hplace hedited =>
    rw [hlog] at h
    exact not_linked_edited hchain h hplace hedited
  | inserted pre post b hlog hplace =>
    by_cases hpost : post = []
    · have hnot := hplace.resolve_left (not_not.mpr hpost)
      rw [hpost, List.append_nil] at hlog
      rw [hpost, ← hlog, linked_concat]
      rintro ⟨-, hprev, hcontent⟩
      exact hnot ⟨hprev, hcontent⟩
    · rw [hlog] at h
      exact not_linked_inserted hchain h hpost
  | removed pre post b hlog hplace =>
    rw [hlog] at h
    exact not_linked_removed hchain h hplace
  | reordered _ hperm horder =>
    apply not_linked_reordered hchain h hperm
    intro hcontents
    apply horder
    apply List.ext_getElem?
    intro i
    have hi := congrArg (fun l => l[i]?) hcontents
    simp only [List.getElem?_map] at hi
    cases hb' : log'[i]? with
    | none =>
      rw [hb', Option.map_none] at hi
      exact (Option.map_eq_none_iff.mp hi.symm).symm
    | some b' =>
      rw [hb', Option.map_some] at hi
      obtain ⟨b, hb, hsame⟩ := Option.map_eq_some_iff.mp hi.symm
      have hmem := List.mem_of_getElem? hb
      have hmem' := hperm.mem_iff.mp (List.mem_of_getElem? hb')
      rw [hb, body_eq_of_hashed h hmem hmem' hsame]

end

/-! ## The log of calls -/

/-- What the calls leave of an empty log. -/
def logAll (hash : String → String) (calls : List LogCall) : Option AuditDb :=
  calls.foldlM (logEvent hash) AuditDb.empty

theorem logOf_logAll {hash : String → String} {calls : List LogCall} {db : AuditDb}
    (h : logAll hash calls = some db) : LogOf hash calls db := by
  unfold logAll at h
  induction calls using List.reverseRecOn generalizing db with
  | nil =>
    cases h
    exact LogOf.empty
  | append_singleton calls call ih =>
    rw [List.foldlM_append] at h
    obtain ⟨before, hbefore, hlast⟩ := Option.bind_eq_some_iff.mp h
    exact (ih hbefore).logged (by simpa using hlast)

/-! ## The anchor of a run -/

/-- The step records a successful verification. -/
def recordsAnchor (x : Taken AuditDb AuditEvent) : Bool :=
  decide (x.before.checks.length < x.after.checks.length) &&
    x.after.checks.getLast?.any AuditChainCheck.ok

/-- The rows of the log when the newest anchor was recorded. -/
def anchoredRows (tr : List (Taken AuditDb AuditEvent)) : Option (List AuditLog) :=
  last (fun x => if recordsAnchor x = true then some x.before.rows else none) tr

/-- The anchor is the last of the rows, and they were in order. -/
structure Anchors (hash : String → String) (rows : List AuditLog) (anchor : AuditChainCheck) : Prop where
  linked : Linked (chaining hash) genesisHash (rows.map AuditLog.body)
  head : ∃ head, rows.getLast? = some head ∧ anchor.logId = some head.id ∧
    anchor.entryHash = some head.entryHash

/-- There is an anchor once one was recorded, and it is that of the rows then. -/
def AnchorSound (hash : String → String) (tr : List (Taken AuditDb AuditEvent)) (db : AuditDb) : Prop :=
  match anchoredRows tr with
  | none => latestAnchor db = none
  | some rows => ∃ anchor, latestAnchor db = some anchor ∧ Anchors hash rows anchor

section

variable {hash : String → String} {tr : List (Taken AuditDb AuditEvent)} {db db' : AuditDb}
  {e : AuditEvent} {now : Nat}

/-- A step that leaves the verifications leaves the anchor. -/
theorem AnchorSound.same (h : AnchorSound hash tr db) (hchecks : db'.checks = db.checks) :
    AnchorSound hash (⟨db, e, db'⟩ :: tr) db' := by
  have hnot : recordsAnchor ⟨db, e, db'⟩ = false := by simp [recordsAnchor, hchecks]
  have hrows : anchoredRows (⟨db, e, db'⟩ :: tr) = anchoredRows tr := by
    unfold anchoredRows
    exact last_cons_none (by simp [hnot])
  have hanchor : latestAnchor db' = latestAnchor db := by
    unfold latestAnchor
    rw [hchecks]
  unfold AnchorSound
  rw [hrows, hanchor]
  exact h

/-- A recorded verification moves the anchor to the end of the log when it succeeds. -/
theorem AnchorSound.verified (h : AnchorSound hash tr db)
    (hdb : db' = (recordFullVerification hash now db).db) : AnchorSound hash (⟨db, e, db'⟩ :: tr) db' := by
  cases hhead : db.rows.getLast? with
  | none =>
    rw [recordFullVerification_none hhead] at hdb
    exact h.same (by rw [hdb])
  | some head =>
    obtain ⟨check, hchecks, hok, hid, hentry⟩ := recordFullVerification_some hash now hhead
    rw [← hdb] at hchecks
    have hanchor := latestAnchor_concat hchecks (by rw [hid]; rfl)
    have hrecords : recordsAnchor ⟨db, e, db'⟩ = check.ok := by simp [recordsAnchor, hchecks]
    by_cases hgood : check.ok = true
    · have hrows : anchoredRows (⟨db, e, db'⟩ :: tr) = some db.rows := by
        unfold anchoredRows
        exact last_cons_some (by simp [hrecords, hgood])
      rw [hgood] at hok
      rw [if_pos hok.symm] at hentry
      unfold AnchorSound
      rw [hrows, hanchor, if_pos hgood]
      exact ⟨check, rfl, verifyFull_ok.mp hok.symm, head, hhead, hid, hentry⟩
    · have hrows : anchoredRows (⟨db, e, db'⟩ :: tr) = anchoredRows tr := by
        unfold anchoredRows
        exact last_cons_none (by simp [hrecords, hgood])
      unfold AnchorSound
      rw [hrows, hanchor, if_neg hgood]
      exact h

theorem anchorSound_step (h : AnchorSound hash tr db) (hstep : AuditSteps hash db e db') :
    AnchorSound hash (⟨db, e, db'⟩ :: tr) db' := by
  unfold AuditSteps at hstep
  cases e with
  | logEvent call => exact h.same (logEvent_ok hstep).2.2
  | verify now => exact h.verified (Option.some.inj hstep).symm
  | sweep intervalHours now =>
    rw [← Option.some.inj hstep]
    refine runAuditAnchorSweep_rule (P := fun db' => AnchorSound hash (⟨db, _, db'⟩ :: tr) db') _ ?_ ?_
    · exact h.same rfl
    · exact h.verified rfl
  | truncate left =>
    have hdb := (Option.some.inj hstep).symm
    exact h.same (by rw [hdb]; rfl)
  | replace log =>
    have hdb := (Option.some.inj hstep).symm
    exact h.same (by rw [hdb])

theorem anchorSound_of_run (h : AuditRun hash tr db) : AnchorSound hash tr db := by
  refine h.invariant_of_history (P := AnchorSound hash) (C := fun _ => True) ?_ ?_ fun _ _ => trivial
  · rintro db rfl
    rfl
  · intro tr db e db' ih hstep _
    exact anchorSound_step ih hstep

end

/-! ## Behind an untouched beginning -/

/-- Increasing numbers are those up to a bound and then the others. -/
theorem filter_le_append_filter_lt {α : Type} {f : α → Nat} {l : List α}
    (h : l.Pairwise fun a b => f a < f b) (k : Nat) :
    l = l.filter (fun a => decide (f a ≤ k)) ++ l.filter fun a => decide (k < f a) := by
  induction l with
  | nil => rfl
  | cons a l ih =>
    rw [List.pairwise_cons] at h
    obtain ⟨hlater, hrest⟩ := h
    by_cases ha : f a ≤ k
    · have hnot : ¬k < f a := by omega
      rw [List.filter_cons_of_pos (by simpa using ha), List.filter_cons_of_neg (by simpa using hnot),
        List.cons_append, ← ih hrest]
    · have hnone : l.filter (fun a => decide (f a ≤ k)) = [] := by
        rw [List.filter_eq_nil_iff]
        intro b hb
        have hlt := hlater b hb
        simp only [decide_eq_true_eq]
        omega
      have hall : l.filter (fun a => decide (k < f a)) = l := by
        have hsplit := ih hrest
        rw [hnone, List.nil_append] at hsplit
        exact hsplit.symm
      have hpos : k < f a := by omega
      rw [List.filter_cons_of_neg (by simpa using ha), List.filter_cons_of_pos (by simpa using hpos), hnone,
        hall, List.nil_append]

/-- Rows are told by their ids. -/
theorem row_eq_of_id {db : AuditDb} {row row' : AuditLog} (hrow : row ∈ db.rows) (hrow' : row' ∈ db.rows)
    (h : row.id = row'.id) : row = row' := by
  have hids : (db.rows.map AuditLog.id).Nodup :=
    (List.pairwise_map.mpr db.increasing).imp fun hlt => Nat.ne_of_lt hlt
  exact List.inj_on_of_nodup_map hids hrow hrow' h

theorem find_row {db : AuditDb} {head : AuditLog} (hhead : head ∈ db.rows) :
    (db.rows.find? fun row => some row.id = some head.id) = some head := by
  cases hfind : db.rows.find? fun row => some row.id = some head.id with
  | none =>
    have hnone := List.find?_eq_none.mp hfind head hhead
    simp at hnone
  | some row =>
    have hid := List.find?_some hfind
    have hsame : row.id = head.id := by simpa using hid
    rw [row_eq_of_id (List.mem_of_find?_eq_some hfind) hhead hsame]

theorem lastDigest_eq {hash : String → String} {rows : List AuditLog} {head : AuditLog}
    (h : rows.getLast? = some head) (prev : String) :
    lastDigest (chaining hash) prev (rows.map AuditLog.body) = head.entryHash := by
  obtain ⟨pre, rfl⟩ := List.getLast?_eq_some_iff.mp h
  rw [List.map_append, lastDigest, List.foldl_append]
  rfl

/-- The rows up to the anchor are the ones that it was recorded of. -/
def PrefixKept (tr : List (Taken AuditDb AuditEvent)) (db : AuditDb) : Prop :=
  ∀ rows anchor, anchoredRows tr = some rows → latestAnchor db = some anchor →
    db.rows.filter (fun row => decide (row.id ≤ anchor.logId.getD 0)) = rows

/-- The same is found, at the same row and for the same reason. -/
def Verdict.Same (v w : Verdict) : Prop := v.ok = w.ok ∧ v.brokenAtId = w.brokenAtId ∧ v.reason = w.reason

/-- What the verification since the anchor and the full one find is the same. -/
def SinceAnchorSame (hash : String → String) (db : AuditDb) : Prop :=
  ∃ v w, verifyChain hash db none true = .ok v ∧ verifyChain hash db none false = .ok w ∧ v.Same w

section

variable {hash : String → String} {tr : List (Taken AuditDb AuditEvent)} {db : AuditDb}

theorem verifyChain_full : verifyChain hash db none false = .ok (verifyFull hash db) := rfl

/-- The verification since the anchor finds the anchor in the log and goes on behind it. -/
theorem verifySince_same {rows : List AuditLog} {anchor : AuditChainCheck} (h : Anchors hash rows anchor)
    (hkept : db.rows.filter (fun row => decide (row.id ≤ anchor.logId.getD 0)) = rows) :
    (verifySince hash db anchor).Same (verifyFull hash db) := by
  obtain ⟨head, hlast, hid, hentry⟩ := h.head
  have hmem : head ∈ db.rows := by
    have hin := List.mem_of_getLast? hlast
    rw [← hkept] at hin
    exact (List.mem_filter.mp hin).1
  have hstored : (db.rows.find? fun row => some row.id = anchor.logId).map AuditLog.entryHash =
      anchor.entryHash := by
    rw [hid, find_row hmem, hentry]
    rfl
  have hsplit := filter_le_append_filter_lt db.increasing (anchor.logId.getD 0)
  rw [hkept] at hsplit
  unfold verifySince verifyFull
  dsimp only
  rw [if_neg (not_not.mpr hstored)]
  generalize db.rows.filter (fun row => decide (anchor.logId.getD 0 < row.id)) = post at hsplit ⊢
  rw [hsplit, walk_append h.linked, lastDigest_eq hlast, hentry]
  exact walk_same

theorem sinceAnchor_same (h : AuditRun hash tr db) (hkept : PrefixKept tr db) : SinceAnchorSame hash db := by
  have hsound := anchorSound_of_run h
  unfold AnchorSound at hsound
  cases hrows : anchoredRows tr with
  | none =>
    rw [hrows] at hsound
    have hfull : verifyChain hash db none true = .ok (verifyFull hash db) := by
      simp [verifyChain, hsound]
    exact ⟨_, _, hfull, verifyChain_full, rfl, rfl, rfl⟩
  | some rows =>
    rw [hrows] at hsound
    obtain ⟨anchor, hanchor, hanchors⟩ := hsound
    have hsince : verifyChain hash db none true = .ok (verifySince hash db anchor) := by
      simp [verifyChain, hanchor]
    exact ⟨_, _, hsince, verifyChain_full, verifySince_same hanchors (hkept rows anchor hrows hanchor)⟩

end

/-! ## When a chain holds -/

/-- What a log that calls wrote is verified for. -/
structure ChainHolds (hash : String → String) (calls : List LogCall) (db : AuditDb) : Prop where
  complete : ∃ v, verifyChain hash db none false = .ok v ∧ v.ok = true
  sound : ∀ db' v, Tampered hash db.bodies db'.bodies → verifyChain hash db' none false = .ok v → v.ok = false
  anchored : ∀ tr s, AuditRun hash tr s → PrefixKept tr s → SinceAnchorSame hash s
  stable : ∀ call ∈ calls, ∀ row prev, row = entryOf hash row.id prev call →
    canonical call.actorUserId call.eventType call.evaluationRecordId (dictOrNone call.oldValue)
        (dictOrNone call.newValue) prev =
      canonical row.actorUserId row.eventType row.evaluationRecordId row.oldValue row.newValue row.prevHash

/-- The row of an accepted call hashes to what it carries when the call is stable. -/
theorem canonical_readBack {hash : String → String} {call : LogCall} (haccepted : call.isAccepted = true)
    (hstable : call.isStable = true) {row : AuditLog} {prev : String}
    (hrow : row = entryOf hash row.id prev call) :
    canonical call.actorUserId call.eventType call.evaluationRecordId (dictOrNone call.oldValue)
        (dictOrNone call.newValue) prev =
      canonical row.actorUserId row.eventType row.evaluationRecordId row.oldValue row.newValue
        row.prevHash := by
  have hhashed : row.body.hashed = call.hashed prev := by
    rw [hrow]
    exact (entryOf_hashed haccepted row.id prev).mpr hstable
  rw [canonical_eq, canonical_eq]
  exact congrArg Hashed.text hhashed.symm

/-- The chain of a log holds exactly when every call that wrote it logged values that come back from their
columns as the same JSON. -/
theorem chain_holds_iff {hash : String → String} {calls : List LogCall} {db : AuditDb}
    (hfree : CollisionFreeHash hash) (h : logAll hash calls = some db) :
    ChainHolds hash calls db ↔ ∀ call ∈ calls, call.isStable = true := by
  have hlog := logOf_logAll h
  have hok := hlog.verifyFull_ok_iff hfree
  constructor
  · intro hholds
    obtain ⟨v, hv, hgood⟩ := hholds.complete
    rw [verifyChain_full] at hv
    rw [← Except.ok.inj hv] at hgood
    exact hok.mp hgood
  · intro hstable
    have hchain := verifyFull_ok.mp (hok.mpr hstable)
    refine ⟨⟨_, verifyChain_full, hok.mpr hstable⟩, ?_, ?_, ?_⟩
    · intro db' v htampered hv
      rw [verifyChain_full] at hv
      rw [← Except.ok.inj hv, Bool.eq_false_iff]
      intro hgood
      exact tampered_not_linked hfree hchain htampered (verifyFull_ok.mp hgood)
    · intro tr s hrun hkept
      exact sinceAnchor_same hrun hkept
    · intro call hcall row prev hrow
      exact canonical_readBack (hlog.accepted call hcall) (hstable call hcall) hrow

/-! ## A log -/

/-- A hash that is known on some texts and tells all others apart. -/
def tableHash (known : List (String × String)) (s : String) : String :=
  (known.lookup s).getD ("unknown:" ++ s)

theorem tableHash_cases (known : List (String × String)) (s : String) :
    (s, tableHash known s) ∈ known ∨ tableHash known s = "unknown:" ++ s := by
  unfold tableHash
  cases hs : known.lookup s with
  | none => exact Or.inr rfl
  | some d =>
    obtain ⟨pre, post, hknown, -⟩ := List.lookup_eq_some_iff.mp hs
    left
    rw [hknown]
    simp

theorem head_unknown (s : String) : ("unknown:" ++ s).toList.head? = some 'u' := by
  rw [String.toList_append]
  rfl

theorem tableHash_free {known : List (String × String)} (hnodup : (known.map Prod.snd).Nodup)
    (hfirst : ∀ p ∈ known, p.2.toList.head? ≠ some 'u') (hgenesis : ∀ p ∈ known, p.2 ≠ genesisHash) :
    CollisionFreeHash (tableHash known) := by
  constructor
  · intro s t h
    rcases tableHash_cases known s with hs | hs
    · rcases tableHash_cases known t with ht | ht
      · exact congrArg Prod.fst (List.inj_on_of_nodup_map hnodup hs ht h)
      · have hd := hfirst _ hs
        rw [h, ht] at hd
        exact absurd (head_unknown t) hd
    · rcases tableHash_cases known t with ht | ht
      · have hd := hfirst _ ht
        rw [← h, hs] at hd
        exact absurd (head_unknown s) hd
      · rw [hs, ht] at h
        have htexts := congrArg String.toList h
        rw [String.toList_append, String.toList_append] at htexts
        exact String.toList_injective (List.append_cancel_left htexts)
  · intro s h
    rcases tableHash_cases known s with hs | hs
    · exact hgenesis _ hs h
    · have hd := head_unknown s
      rw [← hs, h] at hd
      exact absurd hd (by decide)

def signIn : LogCall where
  actorUserId := 4
  eventType := "login_succeeded"
  newValue := some [(.str "ip", .str "10.0.0.7")]

/-- A special score, which the record did not have. -/
def specialScore (bonusPoints : PyFloat) (bonusReason : PyJson) : LogCall where
  actorUserId := 4
  eventType := "special_score_set"
  evaluationRecordId := some 7
  oldValue := some [(.str "bonus_points", .none), (.str "bonus_reason", .none)]
  newValue := some [(.str "bonus_points", .number (.float bonusPoints)), (.str "bonus_reason", bonusReason)]

def bonus : LogCall := specialScore ⟨false, 4, [2, 5], none, by decide⟩ (.str "night shifts")

/-- The request says -0.0, which is not below zero. -/
def negativeZero : LogCall := specialScore { PyFloat.zero with negative := true } .none

def signInHash : String := "851af52fc44c6c33f18409392d99ef3f3efcb0ab290dd59ac6e2ec9337ac05ff"

/-- SHA-256 of the rows of these calls. -/
def knownHashes : List (String × String) :=
  [((signIn.hashed genesisHash).text, signInHash),
    ((bonus.hashed signInHash).text, "1ae70d2e4585c2145e29207ecfb1a1c9dba50d215e8562d5ff6468ea28829b60"),
    ((negativeZero.hashed genesisHash).text,
      "94e60bf3fc27c7ff5b936de5b7e4af3da62608288abeda0e611ca3f1f057aeac"),
    (((specialScore PyFloat.zero .none).hashed genesisHash).text,
      "8aff4855c0040db133fe3d2b9ec0386733628ab8dc9011bbb0143b7218507d3f")]

def knownHash : String → String := tableHash knownHashes

theorem knownHash_free : CollisionFreeHash knownHash :=
  tableHash_free (by decide) (by decide) (by decide)

/-- The log of a sign-in and of a special score. -/
theorem chain_of_bonus_holds :
    ∃ db, logAll knownHash [signIn, bonus] = some db ∧ ChainHolds knownHash [signIn, bonus] db :=
  ⟨_, rfl, (chain_holds_iff knownHash_free rfl).mpr (by decide)⟩

/-- The log of a special score of -0.0 is found to be broken. -/
theorem negative_zero_breaks_chain :
    ¬∀ (hash : String → String) (calls : List LogCall) (db : AuditDb), CollisionFreeHash hash →
      logAll hash calls = some db → ChainHolds hash calls db := by
  intro h
  have hlogged : ∃ db, logAll knownHash [negativeZero] = some db := ⟨_, rfl⟩
  obtain ⟨db, hlog⟩ := hlogged
  obtain ⟨v, hv, hgood⟩ := (h knownHash [negativeZero] db knownHash_free hlog).complete
  rw [verifyChain_full] at hv
  rw [← Except.ok.inj hv, (logOf_logAll hlog).verifyFull_ok_iff knownHash_free] at hgood
  have hstable := hgood negativeZero List.mem_cons_self
  revert hstable
  decide

end NexaHR.AuditChain
