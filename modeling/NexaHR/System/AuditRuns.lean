import NexaHR.Foundations.Runs
import NexaHR.Services.Audit

/-! # Runs of the audit log

Calls, verifications and sweeps in any order, and between them whatever someone who holds the database does
to the log. Nobody writes into the table of the verifications but the verifications.

* `AuditEvent`, `AuditDb.next`, `AuditRun`: the steps and the runs.
* `Hashed`, `chaining`: what a row hashes, and the log as a chain.
* `walk_ok`, `walk_append`: a verification asks whether the rows are linked.
* `WrittenBy`, `linked_writtenBy`: the rows of calls are linked when all their values come back as the same
  JSON.
* `LogOf`: the log holds the rows of these calls.
-/

namespace NexaHR.AuditChain

open Foundations

set_option autoImplicit false

/-! ## What is hashed -/

/-- The content of a row: what is hashed of it, with its values as JSON. -/
structure Hashed where
  actorUserId : Nat
  eventType : String
  evaluationRecordId : Option Nat
  oldValue : Json
  newValue : Json
  prevHash : String

namespace Hashed

def recordJson (evaluationRecordId : Option Nat) : Json :=
  match evaluationRecordId with
  | some k => .number (.int k)
  | none => .null

/-- The fields in the order of their names. -/
def text (h : Hashed) : String :=
  String.ofList (Json.dict
    [("actor_user_id", .number (.int h.actorUserId)),
      ("evaluation_record_id", recordJson h.evaluationRecordId), ("event_type", .str h.eventType),
      ("new_value", h.newValue), ("old_value", h.oldValue), ("prev_hash", .str h.prevHash)]).text

theorem recordJson_inj {k k' : Option Nat} (h : recordJson k = recordJson k') : k = k' := by
  cases k with
  | none =>
    cases k' with
    | none => rfl
    | some n => cases h
  | some m =>
    cases k' with
    | none => cases h
    | some n =>
      have hint : (m : Int) = n := by simpa [recordJson] using h
      rw [Int.ofNat_inj.mp hint]

/-- The canonical text tells the content. -/
theorem text_inj {h h' : Hashed} (heq : h.text = h'.text) : h = h' := by
  have hjson := Json.text_inj (String.ofList_injective heq)
  simp only [Json.dict.injEq, List.cons.injEq, Prod.mk.injEq, Json.number.injEq, PyNumber.int.injEq,
    Json.str.injEq, true_and, and_true] at hjson
  obtain ⟨hactor, hrecord, hevent, hnew, hold, hprev⟩ := hjson
  obtain ⟨actor, event, record, old, new, prev⟩ := h
  obtain ⟨actor', event', record', old', new', prev'⟩ := h'
  have hids := recordJson_inj hrecord
  have hactors := Int.ofNat_inj.mp hactor
  simp only at hactors hids hevent hnew hold hprev
  rw [hactors, hids, hevent, hnew, hold, hprev]

end Hashed

theorem canonical_eq (actorUserId : Nat) (eventType : String) (evaluationRecordId : Option Nat)
    (oldValue newValue : PyJson) (prevHash : String) :
    canonical actorUserId eventType evaluationRecordId oldValue newValue prevHash =
      Hashed.text ⟨actorUserId, eventType, evaluationRecordId, oldValue.sorted, newValue.sorted, prevHash⟩ := by
  cases evaluationRecordId <;> rfl

/-- A row without its number: what is hashed of it, and its hash. -/
structure Body where
  hashed : Hashed
  entryHash : String

def AuditLog.body (row : AuditLog) : Body where
  hashed :=
    { actorUserId := row.actorUserId
      eventType := row.eventType
      evaluationRecordId := row.evaluationRecordId
      oldValue := row.oldValue.sorted
      newValue := row.newValue.sorted
      prevHash := row.prevHash }
  entryHash := row.entryHash

def AuditDb.bodies (db : AuditDb) : List Body := db.rows.map AuditLog.body

/-- The log as a chain. -/
def chaining (hash : String → String) : Chaining Body Hashed String where
  content := Body.hashed
  digest := Body.entryHash
  prev := Hashed.prevHash
  hash := fun h => hash h.text

/-- No two texts have one hash, and none has that of the beginning. -/
structure CollisionFreeHash (hash : String → String) : Prop where
  injective : ∀ s t, hash s = hash t → s = t
  avoids : ∀ s, hash s ≠ genesisHash

section

variable {hash : String → String}

theorem CollisionFreeHash.chaining (h : CollisionFreeHash hash) :
    CollisionFree (chaining hash) genesisHash where
  injective := fun _ _ heq => Hashed.text_inj (h.injective _ _ heq)
  avoids := fun _ => h.avoids _

theorem computeHash_eq (row : AuditLog) : computeHash hash row = hash row.body.hashed.text := by
  unfold computeHash
  rw [canonical_eq]
  rfl

/-! ## Verification of a chain -/

section

variable {full full' : Bool} {anchorLogId anchorLogId' anchorVerifiedAt anchorVerifiedAt' : Option Nat}
  {rows pre post : List AuditLog} {prev : String} {checked checked' : Nat}

theorem walk_cons (row : AuditLog) : walk hash full anchorLogId anchorVerifiedAt (row :: rows) prev checked =
    if row.prevHash ≠ prev then
      ⟨false, checked + 1, some row.id, some linkBroken, full, anchorLogId, anchorVerifiedAt⟩
    else if computeHash hash row ≠ row.entryHash then
      ⟨false, checked + 1, some row.id, some contentBroken, full, anchorLogId, anchorVerifiedAt⟩
    else walk hash full anchorLogId anchorVerifiedAt rows row.entryHash (checked + 1) := rfl

/-- A verification finds the rows in order when they are linked. -/
theorem walk_ok : (walk hash full anchorLogId anchorVerifiedAt rows prev checked).ok = true ↔
    Linked (chaining hash) prev (rows.map AuditLog.body) := by
  induction rows generalizing prev checked with
  | nil => simp [walk]
  | cons row rows ih =>
    rw [walk_cons, List.map_cons, linked_cons]
    by_cases hprev : row.prevHash = prev
    · by_cases hhash : computeHash hash row = row.entryHash
      · rw [if_neg (not_not.mpr hprev), if_neg (not_not.mpr hhash), ih]
        rw [computeHash_eq] at hhash
        exact ⟨fun h => ⟨hprev, hhash, h⟩, fun h => h.2.2⟩
      · rw [if_neg (not_not.mpr hprev), if_pos hhash]
        rw [computeHash_eq] at hhash
        exact ⟨fun h => (by cases h), fun h => absurd h.2.1 hhash⟩
    · rw [if_pos hprev]
      exact ⟨fun h => (by cases h), fun h => absurd h.1 hprev⟩

/-- A verification goes on behind rows that are linked. -/
theorem walk_append (h : Linked (chaining hash) prev (pre.map AuditLog.body)) :
    walk hash full anchorLogId anchorVerifiedAt (pre ++ post) prev checked =
      walk hash full anchorLogId anchorVerifiedAt post
        (lastDigest (chaining hash) prev (pre.map AuditLog.body)) (checked + pre.length) := by
  induction pre generalizing prev checked with
  | nil => rfl
  | cons row pre ih =>
    rw [List.map_cons, linked_cons] at h
    obtain ⟨hprev, hhash, hrest⟩ := h
    have hname : row.prevHash = prev := hprev
    have hrecomputed : computeHash hash row = row.entryHash := (computeHash_eq row).trans hhash
    rw [List.cons_append, walk_cons, if_neg (not_not.mpr hname), if_neg (not_not.mpr hrecomputed)]
    rw [List.length_cons, show checked + (pre.length + 1) = checked + 1 + pre.length by omega]
    exact ih hrest

/-- What a verification finds does not depend on where it says that it began. -/
theorem walk_same :
    (walk hash full anchorLogId anchorVerifiedAt rows prev checked).ok =
        (walk hash full' anchorLogId' anchorVerifiedAt' rows prev checked').ok ∧
      (walk hash full anchorLogId anchorVerifiedAt rows prev checked).brokenAtId =
        (walk hash full' anchorLogId' anchorVerifiedAt' rows prev checked').brokenAtId ∧
      (walk hash full anchorLogId anchorVerifiedAt rows prev checked).reason =
        (walk hash full' anchorLogId' anchorVerifiedAt' rows prev checked').reason := by
  induction rows generalizing prev checked checked' with
  | nil => exact ⟨rfl, rfl, rfl⟩
  | cons row rows ih =>
    rw [walk_cons, walk_cons]
    split
    · exact ⟨rfl, rfl, rfl⟩
    · split
      · exact ⟨rfl, rfl, rfl⟩
      · exact ih

end

theorem verifyFull_ok {db : AuditDb} :
    (verifyFull hash db).ok = true ↔ Linked (chaining hash) genesisHash db.bodies := walk_ok

/-! ## The rows of calls -/

/-- The values of the call come back as the same JSON. -/
def LogCall.isStable (call : LogCall) : Bool :=
  (dictOrNone call.oldValue).isStable && (dictOrNone call.newValue).isStable

/-- What is hashed of a call. -/
def LogCall.hashed (call : LogCall) (prevHash : String) : Hashed where
  actorUserId := call.actorUserId
  eventType := call.eventType
  evaluationRecordId := call.evaluationRecordId
  oldValue := (dictOrNone call.oldValue).sorted
  newValue := (dictOrNone call.newValue).sorted
  prevHash := prevHash

/-- The row of an accepted call reads as it was hashed exactly when its values are stable. -/
theorem entryOf_hashed {call : LogCall} (haccepted : call.isAccepted = true) (id : Nat) (prev : String) :
    (entryOf hash id prev call).body.hashed = call.hashed prev ↔ call.isStable = true := by
  unfold LogCall.isAccepted at haccepted
  simp only [Bool.and_eq_true] at haccepted
  obtain ⟨⟨-, hold⟩, hnew⟩ := haccepted
  unfold LogCall.isStable
  rw [Bool.and_eq_true, ← PyJson.sorted_readBack _ hold, ← PyJson.sorted_readBack _ hnew]
  simp [AuditLog.body, entryOf, LogCall.hashed]

theorem entryOf_entryHash (call : LogCall) (id : Nat) (prev : String) :
    (entryOf hash id prev call).entryHash = hash (call.hashed prev).text := by
  unfold entryOf
  rw [canonical_eq]
  rfl

/-- The rows are those of the calls, in their order, from a hash on. -/
def WrittenBy (hash : String → String) : String → List AuditLog → List LogCall → Prop
  | _, [], [] => True
  | prev, row :: rows, call :: calls =>
    row = entryOf hash row.id prev call ∧ WrittenBy hash row.entryHash rows calls
  | _, _, _ => False

/-- The rows of accepted calls are linked exactly when all the calls are stable. -/
theorem linked_writtenBy (hfree : CollisionFreeHash hash) {prev : String} {rows : List AuditLog}
    {calls : List LogCall} (h : WrittenBy hash prev rows calls)
    (haccepted : ∀ call ∈ calls, call.isAccepted = true) :
    Linked (chaining hash) prev (rows.map AuditLog.body) ↔ ∀ call ∈ calls, call.isStable = true := by
  induction rows generalizing prev calls with
  | nil =>
    cases calls with
    | nil => simp
    | cons call calls => exact h.elim
  | cons row rows ih =>
    cases calls with
    | nil => exact h.elim
    | cons call calls =>
      obtain ⟨hrow, hrest⟩ := h
      have hhead := haccepted call List.mem_cons_self
      have htail := ih hrest fun c hc => haccepted c (List.mem_cons_of_mem _ hc)
      have hprev : row.body.hashed.prevHash = prev := by
        rw [hrow]
        rfl
      have hentry : row.entryHash = hash (call.hashed prev).text := by
        rw [hrow]
        exact entryOf_entryHash call row.id prev
      have hstable : hash row.body.hashed.text = row.entryHash ↔ call.isStable = true := by
        rw [hentry, ← entryOf_hashed hhead row.id prev, ← hrow]
        constructor
        · intro heq
          exact Hashed.text_inj (hfree.injective _ _ heq)
        · intro heq
          rw [heq]
      rw [List.map_cons, linked_cons, List.forall_mem_cons, ← htail]
      constructor
      · rintro ⟨-, hhash, hlinked⟩
        exact ⟨hstable.mp hhash, hlinked⟩
      · rintro ⟨hcall, hlinked⟩
        exact ⟨hprev, hstable.mpr hcall, hlinked⟩

/-- The hash that the next row names. -/
def lastEntryHash (prev : String) (rows : List AuditLog) : String :=
  (rows.getLast?.map AuditLog.entryHash).getD prev

theorem lastEntryHash_cons (prev : String) (row : AuditLog) (rows : List AuditLog) :
    lastEntryHash prev (row :: rows) = lastEntryHash row.entryHash rows := by
  unfold lastEntryHash
  rw [List.getLast?_cons]
  cases rows.getLast? <;> rfl

theorem WrittenBy.concat {prev : String} {rows : List AuditLog} {calls : List LogCall}
    (h : WrittenBy hash prev rows calls) (call : LogCall) (id : Nat) :
    WrittenBy hash prev (rows ++ [entryOf hash id (lastEntryHash prev rows) call]) (calls ++ [call]) := by
  induction rows generalizing prev calls with
  | nil =>
    cases calls with
    | nil => exact ⟨rfl, trivial⟩
    | cons c calls => exact h.elim
  | cons row rows ih =>
    cases calls with
    | nil => exact h.elim
    | cons c calls =>
      rw [lastEntryHash_cons]
      exact ⟨h.1, ih h.2⟩

theorem WrittenBy.length_eq {prev : String} {rows : List AuditLog} {calls : List LogCall}
    (h : WrittenBy hash prev rows calls) : rows.length = calls.length := by
  induction rows generalizing prev calls with
  | nil =>
    cases calls with
    | nil => rfl
    | cons c calls => exact h.elim
  | cons row rows ih =>
    cases calls with
    | nil => exact h.elim
    | cons c calls => rw [List.length_cons, List.length_cons, ih h.2]

theorem WrittenBy.take {prev : String} {rows : List AuditLog} {calls : List LogCall}
    (h : WrittenBy hash prev rows calls) (left : Nat) :
    WrittenBy hash prev (rows.take left) (calls.take left) := by
  induction rows generalizing prev calls left with
  | nil =>
    cases calls with
    | nil =>
      rw [List.take_nil, List.take_nil]
      exact trivial
    | cons c calls => exact h.elim
  | cons row rows ih =>
    cases calls with
    | nil => exact h.elim
    | cons c calls =>
      cases left with
      | zero => exact trivial
      | succ left => exact ⟨h.1, ih h.2 left⟩

end

/-! ## Runs -/

/-- The rows after the first ones are deleted. The sequence goes on. -/
def AuditDb.truncated (db : AuditDb) (left : Nat) : AuditDb where
  rows := db.rows.take left
  lastId := db.lastId
  increasing := db.increasing.sublist (List.take_sublist left db.rows)
  bounded := fun row hrow => db.bounded row (List.mem_of_mem_take hrow)
  checks := db.checks

/-- Someone who holds the database deletes rows from the end of the log, or replaces the log by another. -/
inductive AuditEvent
  | logEvent (call : LogCall)
  | verify (now : Nat)
  | sweep (intervalHours now : Nat)
  | truncate (left : Nat)
  | replace (log : AuditDb)

def AuditDb.next (hash : String → String) (db : AuditDb) : AuditEvent → Option AuditDb
  | .logEvent call => AuditChain.logEvent hash db call
  | .verify now => some (recordFullVerification hash now db).db
  | .sweep intervalHours now => some (runAuditAnchorSweep hash intervalHours now db).db
  | .truncate left => some (db.truncated left)
  | .replace log => some { log with checks := db.checks }

def AuditSteps (hash : String → String) (db : AuditDb) (e : AuditEvent) (db' : AuditDb) : Prop :=
  db.next hash e = some db'

/-- A run from the empty log, with its history. -/
abbrev AuditRun (hash : String → String) (tr : List (Taken AuditDb AuditEvent)) (db : AuditDb) : Prop :=
  Run (· = AuditDb.empty) (AuditSteps hash) tr db

section

variable {hash : String → String} {now : Nat} {db db' : AuditDb}

/-- A call appends its row and leaves the verifications. -/
theorem logEvent_ok {call : LogCall} (h : logEvent hash db call = some db') :
    call.isAccepted = true ∧
      db'.rows = db.rows ++ [entryOf hash (db.lastId + call.skipped + 1) (lastHash db) call] ∧
      db'.checks = db.checks := by
  unfold logEvent at h
  split at h
  next haccepted =>
    cases h
    exact ⟨haccepted, rfl, rfl⟩
  next => cases h

/-- A sweep does nothing, or verifies. -/
theorem runAuditAnchorSweep_rule {P : AuditDb → Prop} (intervalHours : Nat) (hsame : P db)
    (hverified : P (recordFullVerification hash now db).db) :
    P (runAuditAnchorSweep hash intervalHours now db).db := by
  unfold runAuditAnchorSweep
  split
  · exact hsame
  · dsimp only
    split
    · exact hverified
    · exact hverified

/-- The verification of a log that is not empty is recorded with the end of the log. -/
theorem recordFullVerification_some (hash : String → String) (now : Nat) {head : AuditLog}
    (hhead : db.rows.getLast? = some head) :
    ∃ check : AuditChainCheck, (recordFullVerification hash now db).db.checks = db.checks ++ [check] ∧
      check.ok = (verifyFull hash db).ok ∧ check.logId = some head.id ∧
      check.entryHash = if (verifyFull hash db).ok then some head.entryHash else none := by
  unfold recordFullVerification
  rw [hhead]
  exact ⟨_, rfl, rfl, rfl, rfl⟩

theorem recordFullVerification_none (hhead : db.rows.getLast? = none) :
    (recordFullVerification hash now db).db = db := by
  unfold recordFullVerification
  rw [hhead]

theorem recordFullVerification_verdict :
    (recordFullVerification hash now db).verdict = verifyFull hash db := by
  unfold recordFullVerification
  split <;> rfl

theorem recordFullVerification_rows : (recordFullVerification hash now db).db.rows = db.rows := by
  unfold recordFullVerification
  split <;> rfl

theorem recordFullVerification_lastId : (recordFullVerification hash now db).db.lastId = db.lastId := by
  unfold recordFullVerification
  split <;> rfl

/-- The anchor after one more verification. -/
theorem latestAnchor_concat {check : AuditChainCheck} (hchecks : db'.checks = db.checks ++ [check])
    (hid : check.logId.isSome = true) :
    latestAnchor db' = if check.ok then some check else latestAnchor db := by
  unfold latestAnchor
  rw [hchecks, List.reverse_append, List.reverse_singleton, List.singleton_append, List.find?_cons, hid]
  cases check.ok <;> rfl

end

/-! ## Logs of calls -/

/-- The rows of the log are those of calls that were accepted. -/
structure LogOf (hash : String → String) (calls : List LogCall) (db : AuditDb) : Prop where
  written : WrittenBy hash genesisHash db.rows calls
  accepted : ∀ call ∈ calls, call.isAccepted = true

namespace LogOf

variable {hash : String → String} {calls : List LogCall} {db db' : AuditDb}

theorem empty : LogOf hash [] AuditDb.empty where
  written := trivial
  accepted := by simp

theorem logged (h : LogOf hash calls db) {call : LogCall} (hcall : logEvent hash db call = some db') :
    LogOf hash (calls ++ [call]) db' := by
  obtain ⟨hnew, hrows, -⟩ := logEvent_ok hcall
  constructor
  · rw [hrows]
    exact h.written.concat call _
  · intro c hc
    rcases List.mem_append.mp hc with hc | hc
    · exact h.accepted c hc
    · rw [List.mem_singleton.mp hc]
      exact hnew

theorem verified (h : LogOf hash calls db) {now : Nat} :
    LogOf hash calls (recordFullVerification hash now db).db where
  written := by
    rw [recordFullVerification_rows]
    exact h.written
  accepted := h.accepted

theorem truncated (h : LogOf hash calls db) (left : Nat) :
    LogOf hash (calls.take left) (db.truncated left) where
  written := h.written.take left
  accepted := fun call hcall => h.accepted call (List.mem_of_mem_take hcall)

/-- A full verification finds the log in order exactly when all its calls are stable. -/
theorem verifyFull_ok_iff (hfree : CollisionFreeHash hash) (h : LogOf hash calls db) :
    (verifyFull hash db).ok = true ↔ ∀ call ∈ calls, call.isStable = true := by
  rw [verifyFull_ok]
  exact linked_writtenBy hfree h.written h.accepted

end LogOf

end NexaHR.AuditChain
