import NexaHR.Properties.AuditChain

/-! # The anchor of the audit log

A log that lost its last rows is a shorter log in order. A verification since the anchor looks for the
anchored row and misses it. A full verification looks at the rows only: it finds them in order, and the
anchor goes back to the last row that is left.

* `anchorCut`: the anchored row is deleted.
* `written`, `logOf_run`: the calls whose rows are left.
* `truncation_caught_iff`: a full verification reports the deletion only when it would fail without it.
* `truncation_not_caught`: a deletion that is not reported.
-/

namespace NexaHR.AuditChain

open Foundations

set_option autoImplicit false

/-! ## Runs without deletions -/

def AuditEvent.isReplacement : AuditEvent → Bool
  | .replace _ => true
  | _ => false

def AuditEvent.isTruncation : AuditEvent → Bool
  | .truncate _ => true
  | _ => false

/-- The anchored row is in the log. -/
def AnchorPresent (db : AuditDb) : Prop :=
  ∀ anchor, latestAnchor db = some anchor → ∃ row ∈ db.rows, anchor.logId = some row.id

/-- The next full verification leaves the anchor where it is or moves it to a later row. -/
def AnchorNotEarlier (hash : String → String) (now : Nat) (db : AuditDb) : Prop :=
  ∀ anchor anchor', latestAnchor db = some anchor →
    latestAnchor (recordFullVerification hash now db).db = some anchor' →
    anchor.logId.getD 0 ≤ anchor'.logId.getD 0

section

variable {hash : String → String} {tr : List (Taken AuditDb AuditEvent)} {db db' : AuditDb} {now : Nat}

theorem logEvent_anchor {call : LogCall} (h : logEvent hash db call = some db') :
    latestAnchor db' = latestAnchor db ∧ db.lastId ≤ db'.lastId := by
  unfold logEvent at h
  split at h
  next =>
    cases h
    exact ⟨rfl, by dsimp only; omega⟩
  next => cases h

/-- What a full verification does to the anchor. -/
theorem latestAnchor_verified (hash : String → String) (now : Nat) (db : AuditDb) :
    latestAnchor (recordFullVerification hash now db).db = latestAnchor db ∨
      (verifyFull hash db).ok = true ∧ ∃ head check, db.rows.getLast? = some head ∧
        check.logId = some head.id ∧ latestAnchor (recordFullVerification hash now db).db = some check := by
  cases hhead : db.rows.getLast? with
  | none =>
    left
    rw [recordFullVerification_none hhead]
  | some head =>
    obtain ⟨check, hchecks, hok, hid, -⟩ := recordFullVerification_some hash now hhead
    have hanchor := latestAnchor_concat hchecks (by rw [hid]; rfl)
    by_cases hgood : check.ok = true
    · right
      rw [if_pos hgood] at hanchor
      exact ⟨hok.symm.trans hgood, head, check, rfl, hid, hanchor⟩
    · left
      rw [if_neg hgood] at hanchor
      exact hanchor

/-- The last row has the largest id. -/
theorem id_lt_head {pre : List AuditLog} {row head : AuditLog} (hrows : db.rows = pre ++ [head])
    (hrow : row ∈ pre) : row.id < head.id := by
  have hinc := db.increasing
  rw [hrows, List.pairwise_append] at hinc
  exact hinc.2.2 row hrow head List.mem_cons_self

theorem id_le_head {row head : AuditLog} (hrow : row ∈ db.rows) (hhead : db.rows.getLast? = some head) :
    row.id ≤ head.id := by
  obtain ⟨pre, hrows⟩ := List.getLast?_eq_some_iff.mp hhead
  rw [hrows] at hrow
  rcases List.mem_append.mp hrow with hpre | hlast
  · exact Nat.le_of_lt (id_lt_head hrows hpre)
  · rw [List.mem_singleton.mp hlast]

theorem AnchorPresent.notEarlier (h : AnchorPresent db) : AnchorNotEarlier hash now db := by
  intro anchor anchor' hanchor hanchor'
  rcases latestAnchor_verified hash now db with hsame | ⟨-, head, check, hhead, hid, hmoved⟩
  · rw [hsame, hanchor] at hanchor'
    rw [Option.some.inj hanchor']
  · rw [hmoved] at hanchor'
    obtain ⟨row, hrow, hrowId⟩ := h anchor hanchor
    rw [← Option.some.inj hanchor', hid, hrowId]
    exact id_le_head hrow hhead

/-! ## Deleted rows -/

/-- The log lost the row that the anchor names. -/
def anchorCut (db : AuditDb) : Bool :=
  (latestAnchor db).any fun anchor => db.rows.all fun row => decide (anchor.logId ≠ some row.id)

theorem anchorCut_iff : anchorCut db = true ↔
    ∃ anchor, latestAnchor db = some anchor ∧ ∀ row ∈ db.rows, anchor.logId ≠ some row.id := by
  unfold anchorCut
  rw [Option.any_eq_true]
  simp only [List.all_eq_true, decide_eq_true_eq]

theorem anchorPresent_of_not_cut (h : anchorCut db ≠ true) : AnchorPresent db := by
  intro anchor hanchor
  by_contra hnone
  apply h
  rw [anchorCut_iff]
  exact ⟨anchor, hanchor, fun row hrow hid => hnone ⟨row, hrow, hid⟩⟩

/-- The anchor names a row that was in the log. -/
def AnchorBounded (db : AuditDb) : Prop :=
  ∀ anchor k, latestAnchor db = some anchor → anchor.logId = some k → k ≤ db.lastId

theorem AnchorBounded.verified (h : AnchorBounded db) :
    AnchorBounded (recordFullVerification hash now db).db := by
  intro anchor k hanchor hk
  rw [recordFullVerification_lastId]
  rcases latestAnchor_verified hash now db with hsame | ⟨-, head, check, hhead, hid, hmoved⟩
  · rw [hsame] at hanchor
    exact h anchor k hanchor hk
  · rw [hmoved] at hanchor
    rw [← Option.some.inj hanchor, hid] at hk
    rw [← Option.some.inj hk]
    exact db.bounded head (List.mem_of_getLast? hhead)

theorem anchorBounded_step {e : AuditEvent} (h : AnchorBounded db) (hstep : AuditSteps hash db e db')
    (honly : e.isReplacement = false) : AnchorBounded db' := by
  unfold AuditSteps at hstep
  cases e with
  | logEvent call =>
    obtain ⟨hanchor, hid⟩ := logEvent_anchor hstep
    intro anchor k hfound hk
    rw [hanchor] at hfound
    have hle := h anchor k hfound hk
    omega
  | verify now =>
    rw [← Option.some.inj hstep]
    exact h.verified
  | sweep intervalHours now =>
    rw [← Option.some.inj hstep]
    exact runAuditAnchorSweep_rule _ h h.verified
  | truncate left =>
    rw [← Option.some.inj hstep]
    exact h
  | replace log => cases honly

theorem anchorBounded_of_run (h : AuditRun hash tr db) (honly : ∀ x ∈ tr, x.label.isReplacement = false) :
    AnchorBounded db := by
  refine h.invariant_of_steps (P := AnchorBounded) ?_ ?_ honly
  · rintro db rfl anchor k hanchor
    cases hanchor
  · intro db e db' ih hstep honly
    exact anchorBounded_step ih hstep honly

/-- The rows that are logged after the deletion do not take the place of the anchored row. -/
theorem cut_of_logEvent {call : LogCall} (h : AuditRun hash tr db)
    (honly : ∀ x ∈ tr, x.label.isReplacement = false) (hcut : anchorCut db = true)
    (hcall : logEvent hash db call = some db') : anchorCut db' = true := by
  obtain ⟨anchor, hanchor, habsent⟩ := anchorCut_iff.mp hcut
  obtain ⟨-, hrows, -⟩ := logEvent_ok hcall
  rw [anchorCut_iff]
  refine ⟨anchor, (logEvent_anchor hcall).1.trans hanchor, ?_⟩
  intro row hrow hid
  rw [hrows] at hrow
  rcases List.mem_append.mp hrow with hold | hnew
  · exact habsent row hold hid
  · have hle := anchorBounded_of_run h honly anchor row.id hanchor hid
    rw [List.mem_singleton.mp hnew] at hle
    have hlt : db.lastId + call.skipped + 1 ≤ db.lastId := hle
    omega

/-- The calls whose rows are left. -/
def written : List (Taken AuditDb AuditEvent) → List LogCall
  | [] => []
  | x :: tr =>
    match x.label with
    | .logEvent call => written tr ++ [call]
    | .truncate left => (written tr).take left
    | _ => written tr

theorem logOf_step {e : AuditEvent} (h : LogOf hash (written tr) db) (hstep : AuditSteps hash db e db')
    (honly : e.isReplacement = false) : LogOf hash (written (⟨db, e, db'⟩ :: tr)) db' := by
  unfold AuditSteps at hstep
  cases e with
  | logEvent call => exact h.logged hstep
  | verify now =>
    rw [← Option.some.inj hstep]
    exact h.verified
  | sweep intervalHours now =>
    rw [← Option.some.inj hstep]
    exact runAuditAnchorSweep_rule (P := LogOf hash (written tr)) _ h h.verified
  | truncate left =>
    rw [← Option.some.inj hstep]
    exact h.truncated left
  | replace log => cases honly

theorem logOf_run (h : AuditRun hash tr db) (honly : ∀ x ∈ tr, x.label.isReplacement = false) :
    LogOf hash (written tr) db := by
  refine h.invariant_of_history (P := fun tr db => LogOf hash (written tr) db) ?_ ?_ honly
  · rintro db rfl
    exact LogOf.empty
  · intro tr db e db' ih hstep honly
    exact logOf_step ih hstep honly

/-- A full verification finds the rows in order when the calls that are left are stable. -/
theorem verification_of_run (hfree : CollisionFreeHash hash) (h : AuditRun hash tr db)
    (honly : ∀ x ∈ tr, x.label.isReplacement = false) :
    (recordFullVerification hash now db).verdict.ok = true ↔ ∀ call ∈ written tr, call.isStable = true := by
  rw [recordFullVerification_verdict]
  exact (logOf_run h honly).verifyFull_ok_iff hfree

/-! ## When a deletion is caught -/

/-- When the anchored row is missing, the next full verification reports a failure. In no case does it move
the anchor to an earlier row. -/
structure TruncationCaught (hash : String → String) (now : Nat) (db : AuditDb) : Prop where
  reported : anchorCut db = true → (recordFullVerification hash now db).verdict.ok = false
  kept : AnchorNotEarlier hash now db

theorem notEarlier_of_failure (h : (recordFullVerification hash now db).verdict.ok = false) :
    AnchorNotEarlier hash now db := by
  intro anchor anchor' hanchor hanchor'
  rcases latestAnchor_verified hash now db with hsame | ⟨hgood, -⟩
  · rw [hsame, hanchor] at hanchor'
    rw [Option.some.inj hanchor']
  · rw [recordFullVerification_verdict, hgood] at h
    cases h

/-- A full verification after deletions from the end of the log reports a failure only when it would fail
without them: when one of the rows that are left is of a call whose values do not come back from their
columns as the same JSON. -/
theorem truncation_caught_iff (hfree : CollisionFreeHash hash) (h : AuditRun hash tr db)
    (honly : ∀ x ∈ tr, x.label.isReplacement = false) :
    TruncationCaught hash now db ↔ (anchorCut db = true → ∃ call ∈ written tr, call.isStable = false) := by
  have hok : (recordFullVerification hash now db).verdict.ok = true ↔ _ :=
    verification_of_run hfree h honly
  constructor
  · intro hcaught hcut
    by_contra hnone
    have hall : ∀ call ∈ written tr, call.isStable = true := by
      intro call hcall
      by_contra hunstable
      exact hnone ⟨call, hcall, Bool.eq_false_iff.mpr hunstable⟩
    have hreported := hcaught.reported hcut
    rw [hok.mpr hall] at hreported
    cases hreported
  · intro hcondition
    by_cases hcut : anchorCut db = true
    · obtain ⟨call, hcall, hunstable⟩ := hcondition hcut
      have hfails : (recordFullVerification hash now db).verdict.ok = false := by
        rw [Bool.eq_false_iff]
        intro hgood
        rw [hok.mp hgood call hcall] at hunstable
        cases hunstable
      exact ⟨fun _ => hfails, notEarlier_of_failure hfails⟩
    · exact ⟨fun h => absurd h hcut, (anchorPresent_of_not_cut hcut).notEarlier⟩

end

/-! ## Two runs -/

section

variable {hash : String → String} {tr : List (Taken AuditDb AuditEvent)} {db db' : AuditDb}
  {calls : List LogCall}

/-- The calls of a log are a run. -/
theorem run_of_logAll (h : logAll hash calls = some db) :
    ∃ tr, AuditRun hash tr db ∧ written tr = calls ∧ ∀ x ∈ tr, x.label.isReplacement = false := by
  unfold logAll at h
  induction calls using List.reverseRecOn generalizing db with
  | nil =>
    cases h
    exact ⟨[], Run.nil rfl, rfl, by simp⟩
  | append_singleton calls call ih =>
    rw [List.foldlM_append] at h
    obtain ⟨before, hbefore, hlast⟩ := Option.bind_eq_some_iff.mp h
    have hcall : logEvent hash before call = some db := by simpa using hlast
    obtain ⟨tr, hrun, hwritten, honly⟩ := ih hbefore
    refine ⟨⟨before, .logEvent call, db⟩ :: tr, Run.cons hrun hcall, ?_, ?_⟩
    · rw [written, hwritten]
    · intro x hx
      rcases List.mem_cons.mp hx with rfl | hx
      · rfl
      · exact honly x hx

/-- Rows at the end of a log are deleted after its verification. -/
def verifiedAndCut (hash : String → String) (now left : Nat) (db : AuditDb) : AuditDb :=
  (recordFullVerification hash now db).db.truncated left

/-- The anchor is then cut. -/
theorem cut_of_verified {now left : Nat} (hok : (verifyFull hash db).ok = true)
    (hleft : left < db.rows.length) : anchorCut (verifiedAndCut hash now left db) = true := by
  have hne : db.rows ≠ [] := List.ne_nil_of_length_pos (by omega)
  obtain ⟨pre, head, hrows⟩ := List.eq_nil_or_concat' db.rows |>.resolve_left hne
  have hhead : db.rows.getLast? = some head := by rw [hrows, List.getLast?_concat]
  obtain ⟨check, hchecks, hcheck, hid, -⟩ := recordFullVerification_some hash now hhead
  have hanchor := latestAnchor_concat hchecks (by rw [hid]; rfl)
  rw [hcheck, if_pos hok] at hanchor
  rw [anchorCut_iff]
  refine ⟨check, hanchor, ?_⟩
  intro row hrow hsame
  -- The rows that are left come before the last one.
  have hkept : row ∈ (recordFullVerification hash now db).db.rows.take left := hrow
  have hlength : db.rows.length = pre.length + 1 := by rw [hrows, List.length_append]; rfl
  rw [recordFullVerification_rows, hrows, List.take_append_of_le_length (by omega)] at hkept
  have hlt := id_lt_head hrows (List.mem_of_mem_take hkept)
  rw [hid, Option.some.injEq] at hsame
  omega

/-- A deletion after a verification, as a run. -/
theorem run_of_cut (hrun : AuditRun hash tr db) (honly : ∀ x ∈ tr, x.label.isReplacement = false)
    (now left : Nat) :
    ∃ tr', AuditRun hash tr' (verifiedAndCut hash now left db) ∧ written tr' = (written tr).take left ∧
      ∀ x ∈ tr', x.label.isReplacement = false := by
  have hverified := Run.cons hrun (show AuditSteps hash db (.verify now) _ from rfl)
  have hcut := Run.cons hverified (show AuditSteps hash _ (.truncate left) _ from rfl)
  refine ⟨_, hcut, rfl, ?_⟩
  intro x hx
  rcases List.mem_cons.mp hx with rfl | hx
  · rfl
  · rcases List.mem_cons.mp hx with rfl | hx
    · rfl
    · exact honly x hx

end

/-- The row of a sign-in is verified and deleted. A special score of -0.0 is logged, which fails every
verification. -/
theorem cut_before_negative_zero_is_caught :
    ∃ db, anchorCut db = true ∧ TruncationCaught knownHash 1 db := by
  have hlogged : ∃ db, logAll knownHash [signIn] = some db := ⟨_, rfl⟩
  obtain ⟨db, hlog⟩ := hlogged
  have hok := ((logOf_logAll hlog).verifyFull_ok_iff knownHash_free).mpr (by decide)
  obtain ⟨tr, hrun, hwritten, honly⟩ := run_of_logAll hlog
  obtain ⟨tr', hrun', hwritten', honly'⟩ := run_of_cut hrun honly 0 0
  have hcut : anchorCut (verifiedAndCut knownHash 0 0 db) = true := by
    apply cut_of_verified hok
    rw [(logOf_logAll hlog).written.length_eq]
    decide
  have hcall : ∃ db', logEvent knownHash (verifiedAndCut knownHash 0 0 db) negativeZero = some db' := ⟨_, rfl⟩
  obtain ⟨db', hstep⟩ := hcall
  refine ⟨db', cut_of_logEvent hrun' honly' hcut hstep, ?_⟩
  have hrun'' := Run.cons hrun' (show AuditSteps knownHash _ (.logEvent negativeZero) db' from hstep)
  apply (truncation_caught_iff knownHash_free hrun'' ?_).mpr
  · intro _
    exact ⟨negativeZero, by simp [written], by decide⟩
  · intro x hx
    rcases List.mem_cons.mp hx with rfl | hx
    · rfl
    · exact honly' x hx

/-- A sign-in and a special score are verified, and the special score is deleted. The next verification finds
the sign-in in order. -/
theorem truncation_not_caught :
    ¬∀ (hash : String → String) (tr : List (Taken AuditDb AuditEvent)) (db : AuditDb) (now : Nat),
      CollisionFreeHash hash → AuditRun hash tr db → (∀ x ∈ tr, x.label.isReplacement = false) →
        TruncationCaught hash now db := by
  intro h
  have hlogged : ∃ db, logAll knownHash [signIn, bonus] = some db := ⟨_, rfl⟩
  obtain ⟨db, hlog⟩ := hlogged
  have hok := ((logOf_logAll hlog).verifyFull_ok_iff knownHash_free).mpr (by decide)
  obtain ⟨tr, hrun, hwritten, honly⟩ := run_of_logAll hlog
  obtain ⟨tr', hrun', hwritten', honly'⟩ := run_of_cut hrun honly 0 1
  have hcut : anchorCut (verifiedAndCut knownHash 0 1 db) = true := by
    apply cut_of_verified hok
    rw [(logOf_logAll hlog).written.length_eq]
    decide
  have hreported := (h knownHash tr' _ 1 knownHash_free hrun' honly').reported hcut
  have hfound : (recordFullVerification knownHash 1 (verifiedAndCut knownHash 0 1 db)).verdict.ok = true := by
    rw [verification_of_run knownHash_free hrun' honly', hwritten', hwritten]
    decide
  rw [hfound] at hreported
  cases hreported

end NexaHR.AuditChain
