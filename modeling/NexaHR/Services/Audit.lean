import NexaHR.Core.Jsonb
import NexaHR.Core.Numbers
import NexaHR.Foundations.HashChain

/-! # The audit log

`services/audit.py` with the two tables that it keeps, and the sweep of `services/scheduled.py` that runs
it. Each row of the log carries a hash of its content and of the row before. A verification recomputes the
hashes, and a successful full one leaves an anchor, the point up to which it looked. The hash is a parameter.

* `AuditDb`: the rows of the log in the order of their ids, and the verifications in theirs.
* `logEvent`: one row more.
* `verifyChain`, `walk`: a verification of the whole log, of its end, or of what comes after the anchor.
* `recordFullVerification`, `runAuditAnchorSweep`: a full verification that is recorded, and the sweep.
-/

namespace NexaHR.AuditChain

open Foundations

set_option autoImplicit false

/-! ## The tables -/

structure AuditLog where
  id : Nat
  actorUserId : Nat
  eventType : String
  evaluationRecordId : Option Nat
  oldValue : PyJson
  newValue : PyJson
  prevHash : String
  entryHash : String

structure AuditChainCheck where
  ok : Bool
  logId : Option Nat
  entryHash : Option String
  verifiedRows : Nat
  brokenAtId : Option Nat
  reason : Option String
  verifiedAt : Nat
  deriving DecidableEq

/-- The log in the order of its ids, which the sequence hands out, and the verifications, the oldest first. -/
structure AuditDb where
  rows : List AuditLog
  lastId : Nat
  increasing : rows.Pairwise fun a b => a.id < b.id
  bounded : ∀ row ∈ rows, row.id ≤ lastId
  checks : List AuditChainCheck

def AuditDb.empty : AuditDb where
  rows := []
  lastId := 0
  increasing := List.Pairwise.nil
  bounded := by simp
  checks := []

/-! ## Rows -/

def genesisHash : String := "0000000000000000000000000000000000000000000000000000000000000000"

def idOrNone (evaluationRecordId : Option Nat) : PyJson :=
  match evaluationRecordId with
  | some k => .number (.int k)
  | none => .none

/-- `_canonical`. -/
def canonical (actorUserId : Nat) (eventType : String) (evaluationRecordId : Option Nat)
    (oldValue newValue : PyJson) (prevHash : String) : String :=
  dumps (.dict
    [(.str "actor_user_id", .number (.int actorUserId)), (.str "event_type", .str eventType),
      (.str "evaluation_record_id", idOrNone evaluationRecordId), (.str "old_value", oldValue),
      (.str "new_value", newValue), (.str "prev_hash", .str prevHash)])

/-- What a call of `log_event` is given. The sequence has lost the numbers of the transactions that were
rolled back since the last row. -/
structure LogCall where
  skipped : Nat := 0
  actorUserId : Nat
  eventType : String
  evaluationRecordId : Option Nat := none
  oldValue : Option (List (PyKey × PyJson)) := none
  newValue : Option (List (PyKey × PyJson)) := none

def dictOrNone (value : Option (List (PyKey × PyJson))) : PyJson :=
  match value with
  | some items => .dict items
  | none => .none

/-- The hash can be computed and the row inserted. -/
def LogCall.isAccepted (call : LogCall) : Bool :=
  decide (call.eventType.length ≤ 100) && isStorable call.eventType &&
    (dictOrNone call.oldValue).isAccepted && (dictOrNone call.newValue).isAccepted

section

variable (hash : String → String)

/-- `compute_hash` of a row as it is read. -/
def computeHash (row : AuditLog) : String :=
  hash (canonical row.actorUserId row.eventType row.evaluationRecordId row.oldValue row.newValue
    row.prevHash)

/-- The row of a call, as it is read back: hashed before it was written, and its values through their
columns. -/
def entryOf (id : Nat) (prevHash : String) (call : LogCall) : AuditLog where
  id := id
  actorUserId := call.actorUserId
  eventType := call.eventType
  evaluationRecordId := call.evaluationRecordId
  oldValue := (dictOrNone call.oldValue).readBack
  newValue := (dictOrNone call.newValue).readBack
  prevHash := prevHash
  entryHash :=
    hash (canonical call.actorUserId call.eventType call.evaluationRecordId (dictOrNone call.oldValue)
      (dictOrNone call.newValue) prevHash)

/-- `_last_hash`. -/
def lastHash (db : AuditDb) : String := (db.rows.getLast?.map AuditLog.entryHash).getD genesisHash

theorem increasing_concat {rows : List AuditLog} {lastId skipped : Nat} {row : AuditLog}
    (hinc : rows.Pairwise fun a b => a.id < b.id) (hbound : ∀ r ∈ rows, r.id ≤ lastId)
    (hid : row.id = lastId + skipped + 1) : (rows ++ [row]).Pairwise fun a b => a.id < b.id := by
  rw [List.pairwise_append]
  refine ⟨hinc, List.pairwise_singleton _ _, ?_⟩
  intro a ha b hb
  have hle := hbound a ha
  rw [List.mem_singleton.mp hb, hid]
  omega

/-- `log_event`, under the lock of the log. -/
def logEvent (db : AuditDb) (call : LogCall) : Option AuditDb :=
  if call.isAccepted then
    some
      { rows := db.rows ++ [entryOf hash (db.lastId + call.skipped + 1) (lastHash db) call]
        lastId := db.lastId + call.skipped + 1
        increasing := increasing_concat db.increasing db.bounded rfl
        bounded := by
          intro row hrow
          rcases List.mem_append.mp hrow with hrow | hrow
          · have hle := db.bounded row hrow
            omega
          · rw [List.mem_singleton.mp hrow]
            exact le_refl _
        checks := db.checks }
  else none

/-! ## Verification -/

/-- The newest successful verification of a log that was not empty. -/
def latestAnchor (db : AuditDb) : Option AuditChainCheck :=
  db.checks.reverse.find? fun check => check.ok && check.logId.isSome

def latestCheck (db : AuditDb) : Option AuditChainCheck := db.checks.getLast?

structure Verdict where
  ok : Bool
  checked : Nat
  brokenAtId : Option Nat
  reason : Option String
  full : Bool
  anchorLogId : Option Nat := none
  anchorVerifiedAt : Option Nat := none
  deriving DecidableEq

def linkBroken : String := "حلقهٔ زنجیره با ردیف قبلی نمی‌خواند (ردیفی حذف یا جابه‌جا شده)"

def contentBroken : String := "محتوای این ردیف با هشِ ثبت‌شده‌اش نمی‌خواند (ردیف ویرایش شده)"

def anchorMismatch : String :=
  "لنگر با خودِ لاگ نمی‌خواند: یا ردیفِ لنگر دست‌کاری شده یا ردیفی از لاگ که " ++
    "به آن اشاره می‌کند"

/-- `_walk`. -/
def walk (full : Bool) (anchorLogId anchorVerifiedAt : Option Nat) :
    List AuditLog → String → Nat → Verdict
  | [], _, checked => ⟨true, checked, none, none, full, anchorLogId, anchorVerifiedAt⟩
  | row :: rows, expectedPrev, checked =>
    if row.prevHash ≠ expectedPrev then
      ⟨false, checked + 1, some row.id, some linkBroken, full, anchorLogId, anchorVerifiedAt⟩
    else if computeHash hash row ≠ row.entryHash then
      ⟨false, checked + 1, some row.id, some contentBroken, full, anchorLogId, anchorVerifiedAt⟩
    else walk full anchorLogId anchorVerifiedAt rows row.entryHash (checked + 1)

/-- From the anchor on, once the anchor itself is found in the log. -/
def verifySince (db : AuditDb) (anchor : AuditChainCheck) : Verdict :=
  let storedHash := (db.rows.find? fun row => some row.id = anchor.logId).map AuditLog.entryHash
  if storedHash ≠ anchor.entryHash then
    ⟨false, 0, anchor.logId, some anchorMismatch, false, anchor.logId, some anchor.verifiedAt⟩
  else
    walk hash false anchor.logId (some anchor.verifiedAt)
      (db.rows.filter fun row => decide (anchor.logId.getD 0 < row.id)) (anchor.entryHash.getD "") 0

/-- The last rows, from what the oldest of them says of the row before. -/
def verifyTail (db : AuditDb) (limit : Nat) : Verdict :=
  let rows := db.rows.drop (db.rows.length - limit)
  walk hash false none none rows ((rows.head?.map AuditLog.prevHash).getD genesisHash) 0

def verifyFull (db : AuditDb) : Verdict := walk hash true none none db.rows genesisHash 0

def verifyChain (db : AuditDb) (limit : Option Nat) (sinceAnchor : Bool) : Except String Verdict :=
  if sinceAnchor = true ∧ limit.isSome = true then
    .error "`since_anchor` و `limit` با هم معنا ندارند؛ یکی را انتخاب کنید"
  else
    match if sinceAnchor then latestAnchor db else none with
    | some anchor => .ok (verifySince hash db anchor)
    | none =>
      match limit with
      | some n => .ok (verifyTail hash db n)
      | none => .ok (verifyFull hash db)

/-! ## Recorded verifications -/

structure Outcome where
  verdict : Verdict
  advanced : Bool
  db : AuditDb

/-- The point of the newest successful verification. -/
def previousLogId (db : AuditDb) : Option Nat := (db.checks.reverse.find? AuditChainCheck.ok).bind fun c => c.logId

def recordFullVerification (now : Nat) (db : AuditDb) : Outcome :=
  let result := verifyFull hash db
  match db.rows.getLast? with
  | none => ⟨result, false, db⟩
  | some head =>
    let check : AuditChainCheck :=
      { ok := result.ok
        logId := some head.id
        entryHash := if result.ok then some head.entryHash else none
        verifiedRows := result.checked
        brokenAtId := result.brokenAtId
        reason := result.reason
        verifiedAt := now }
    ⟨result, result.ok && (previousLogId db).all fun previous => decide (previous < head.id),
      { db with checks := db.checks ++ [check] }⟩

/-- What everyone who may see the log is told of a failed verification. -/
structure Alert where
  message : String
  dedupKey : String
  deriving DecidableEq

def alertOf (verdict : Verdict) : Alert where
  message :=
    "راستی‌آزماییِ زنجیرهٔ گزارش رویدادها شکست خورد: " ++
      verdict.reason.getD "None" ++ " (نخستین ردیفِ ناسازگار: " ++
      faDigits (toString (verdict.brokenAtId.getD 0)) ++ "). " ++
      "یعنی ردیفی از لاگ مستقیماً در دیتابیس ویرایش یا حذف شده است."
  dedupKey := "audit_chain_broken:" ++ (verdict.brokenAtId.map toString).getD "None"

structure SweepOutcome where
  moved : Nat
  alert : Option Alert
  db : AuditDb

def runAuditAnchorSweep (intervalHours now : Nat) (db : AuditDb) : SweepOutcome :=
  if (latestCheck db).any fun last => decide (now < last.verifiedAt + intervalHours * 3600) then
    ⟨0, none, db⟩
  else
    let outcome := recordFullVerification hash now db
    if outcome.verdict.ok then ⟨if outcome.advanced then 1 else 0, none, outcome.db⟩
    else ⟨0, some (alertOf outcome.verdict), outcome.db⟩

end

end NexaHR.AuditChain
