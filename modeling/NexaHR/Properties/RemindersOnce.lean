import NexaHR.Properties.LeaderLock

/-! # Nobody is told twice

A sweep leaves out what was told within its window. Two sweeps that look at the database at the same time would
both find nothing told, and both tell it; the lock keeps them apart.

* `Notification.kind`: what the key of a notice says first.
* `settled_quiet`: no request to the system creates a notice of a sweep's kind.
* `Spaced`, `ToldOnce`: a notice that says the same again comes after the window of its kind.
* `runAllSweeps_spaced`: the sweeps keep to their windows, if nothing else is told while they run.
* `Steady`: the invariant of the cluster, with what is created and not committed.
* `nobody_is_told_twice`: in every run where no call loses its connection while it works, it is so.
-/

namespace NexaHR

open Foundations

set_option autoImplicit false

/-! ## Kinds -/

/-- The key up to its first colon. -/
def keyKind (key : String) : List Char := key.toList.takeWhile (· ≠ ':')

def Notification.kind (n : Notification) : Option (List Char) := n.dedupKey.map keyKind

theorem keyKind_append {kind : String} (hkind : ':' ∉ kind.toList) (rest : String) :
    keyKind (kind ++ ":" ++ rest) = kind.toList := by
  unfold keyKind
  rw [String.toList_append, String.toList_append, List.append_assoc, List.takeWhile_append_of_pos]
  · simp
  · intro c hc
    rw [decide_eq_true_eq]
    intro heq
    exact hkind (heq ▸ hc)

def sweepKinds : List String := ["contract_expiry", "sla", "orphaned"]

/-- The notice is of none of the kinds of the sweeps. -/
def Notification.Ordinary (n : Notification) : Prop := ∀ kind ∈ sweepKinds, n.kind ≠ some kind.toList

/-! ## What requests tell -/

theorem ordinary_of_none {n : Notification} (h : n.dedupKey = none) : n.Ordinary := by
  intro kind _
  unfold Notification.kind
  rw [h]
  exact nofun

theorem notify_ordinary {env : Env} {userIds : List Nat} {type message : String} {recordId : Option Nat}
    {link : Option String} : ∀ n ∈ notify env userIds type message recordId link, n.Ordinary := by
  intro n hn
  obtain ⟨k, _, rfl⟩ := List.mem_map.mp hn
  exact ordinary_of_none rfl

theorem notifyOnce_vacated {env : Env} {db : Database} {userId k : Nat} {type message : String}
    {seats : List OccupiedSeat} {link : Option String} :
    ∀ n ∈ notifyOnce env db k type message (vacatedKey env userId seats) link, n.Ordinary := by
  intro n hn
  unfold notifyOnce at hn
  split at hn
  · cases hn
  · rw [List.mem_singleton] at hn
    subst hn
    have hkind : keyKind (vacatedKey env userId seats) = "seats_vacated".toList := by
      unfold vacatedKey
      rw [show ("seats_vacated:" : String) = "seats_vacated" ++ ":" by decide, String.append_assoc,
        String.append_assoc]
      exact keyKind_append (by decide) _
    intro kind hmem heq
    have hsame : some (keyKind (vacatedKey env userId seats)) = some kind.toList := heq
    rw [hkind, Option.some.injEq] at hsame
    unfold sweepKinds at hmem
    simp only [List.mem_cons, List.not_mem_nil, or_false] at hmem
    obtain rfl | rfl | rfl := hmem
    · exact absurd hsame (by decide)
    · exact absurd hsame (by decide)
    · exact absurd hsame (by decide)

theorem notifyVacatedSeats_ordinary {db : Database} {env : Env} {userId : Nat} {personLabel : String} :
    ∀ n ∈ notifyVacatedSeats db env userId personLabel, n.Ordinary := by
  intro n hn
  unfold notifyVacatedSeats at hn
  dsimp only at hn
  rcases List.mem_append.mp hn with hn | hn
  · split at hn
    · cases hn
    · obtain ⟨hrId, _, hn⟩ := List.mem_flatMap.mp hn
      exact notifyOnce_vacated n hn
  · unfold notifyShieldedSeats at hn
    dsimp only at hn
    obtain ⟨recipient, _, hn⟩ := List.mem_flatMap.mp hn
    exact notifyOnce_vacated n hn

theorem notifyForWorkflowAction_ordinary {db : Database} {env : Env} {r : EvaluationRecord} {a : Action} :
    ∀ n ∈ notifyForWorkflowAction db env r a, n.Ordinary := by
  intro n hn
  unfold notifyForWorkflowAction at hn
  rcases List.mem_append.mp hn with hn | hn
  · split at hn
    · exact notify_ordinary n hn
    · cases hn
  · unfold notifySubject at hn
    split at hn
    · exact notify_ordinary n hn
    · cases hn

/-! ### Requests about a record -/

def Work.Quiet (w : Work) : Prop := ∀ n ∈ w.notifications, n.Ordinary

theorem quiet_of_nil {w : Work} (h : w.notifications = []) : w.Quiet := by
  intro n hn
  rw [h] at hn
  cases hn

theorem applyTransition_quiet {db : Database} {env : Env} {r : EvaluationRecord} {a : Action} {user : CurrentUser}
    {before : EvaluationRecord → Except HTTPException Work} (hbefore : ∀ r, Gives Work.Quiet (before r)) :
    Gives Work.Quiet (applyTransition db env r a user before) := by
  intro w h
  obtain ⟨-, -, -, w₀, hw₀, -, -, -, hnotifications⟩ := applyTransition_ok h
  intro n hn
  rw [hnotifications] at hn
  rcases List.mem_append.mp hn with hn | hn
  · exact hbefore _ w₀ hw₀ n hn
  · exact notifyForWorkflowAction_ordinary n hn

theorem stampFinalization_quiet {db : Database} {env : Env} (r : EvaluationRecord) :
    Gives Work.Quiet (stampFinalization db env r) :=
  gives_bind fun _ => gives_pure (quiet_of_nil rfl)

theorem nothingBefore_quiet (r : EvaluationRecord) : Gives Work.Quiet (nothingBefore r) :=
  gives_pure (quiet_of_nil rfl)

theorem run_quiet {db : Database} {env : Env} {user : CurrentUser} {r : EvaluationRecord} (op : RecordOperation) :
    Gives Work.Quiet (op.run db env user r) := by
  cases op with
  | upsertScores scores => exact gives_bind fun _ => gives_bind fun _ => gives_pure (quiet_of_nil rfl)
  | setEvaluatorComment evaluatorComment => exact gives_bind fun _ => gives_pure (quiet_of_nil rfl)
  | setSpecialScore bonusPoints bonusReason =>
    refine gives_bind fun _ => ?_
    dsimp only
    split
    · exact gives_error _
    · exact gives_pure (quiet_of_nil rfl)
  | submitEvaluation =>
    refine gives_bind fun _ => applyTransition_quiet fun r w hw => ?_
    exact quiet_of_nil (finalizeScoring_ok hw).2.2.2
  | hrApprove =>
    refine gives_bind fun _ => applyTransition_quiet fun r => ?_
    split
    · exact stampFinalization_quiet r
    · exact nothingBefore_quiet r
  | deputyApprove => exact applyTransition_quiet nothingBefore_quiet
  | ceoFinalize => exact applyTransition_quiet stampFinalization_quiet
  | returnEvaluation reason =>
    exact gives_bind fun _ => gives_bind fun _ => applyTransition_quiet fun _ => gives_pure (quiet_of_nil rfl)
  | cancelEvaluation reason =>
    exact gives_bind fun _ => applyTransition_quiet fun _ => gives_pure (quiet_of_nil rfl)
  | extendSubmissionWindow untilDate reason =>
    exact gives_bind fun _ => gives_bind fun _ => gives_bind fun _ => gives_pure notify_ordinary
  | hrClaim =>
    exact gives_bind fun _ => gives_bind fun _ => gives_bind fun _ => gives_pure (quiet_of_nil rfl)
  | hrHandover newHrUserId reason =>
    exact gives_bind fun _ => gives_bind fun _ => gives_bind fun _ => gives_bind fun _ => gives_bind fun _ =>
      gives_bind fun _ => gives_pure notify_ordinary
  | resolveObjection resolution =>
    exact gives_bind fun _ => gives_bind fun _ => gives_bind fun _ => gives_pure notify_ordinary
  | reassignStageOwner stageField newUserId reason =>
    exact gives_bind fun _ => gives_bind fun _ => gives_bind fun _ => gives_bind fun _ => gives_bind fun _ =>
      gives_bind fun _ => gives_bind fun _ => gives_pure notify_ordinary
  | addComment commentText =>
    exact gives_bind fun _ => gives_bind fun _ => gives_bind fun _ => gives_bind fun _ =>
      gives_pure (quiet_of_nil rfl)
  | addReply parentCommentId commentText =>
    refine gives_bind fun _ => gives_bind fun _ => gives_bind fun _ => gives_pure ?_
    intro n hn
    dsimp only at hn
    split at hn
    · cases hn
    · exact notify_ordinary n hn
  | submitSelfAssessment scores note =>
    exact gives_bind fun _ => gives_bind fun _ => gives_bind fun _ => gives_bind fun _ => gives_bind fun _ =>
      gives_bind fun _ => gives_bind fun _ => gives_pure (quiet_of_nil rfl)
  | inviteSelfAssessment =>
    exact gives_bind fun _ => gives_bind fun _ => gives_bind fun _ => gives_pure notify_ordinary
  | fileObjection reason =>
    exact gives_bind fun _ => gives_bind fun _ => gives_bind fun _ => gives_bind fun _ => gives_bind fun _ =>
      gives_pure notify_ordinary
  | acknowledgeEvaluation =>
    exact gives_bind fun _ => gives_bind fun _ => gives_bind fun _ => gives_pure notify_ordinary

/-! ### All requests -/

/-- From the first database to the second, notices may go, and none of a sweep's kind comes. -/
def QuietTo (db db' : Database) : Prop :=
  ∃ kept created, db'.notifications = kept ++ created ∧ kept.Sublist db.notifications ∧ ∀ n ∈ created, n.Ordinary

theorem quietTo_of_sublist {db db' : Database} (h : db'.notifications.Sublist db.notifications) : QuietTo db db' :=
  ⟨db'.notifications, [], (List.append_nil _).symm, h, nofun⟩

theorem quietTo_of_eq {db db' : Database} (h : db'.notifications = db.notifications) : QuietTo db db' :=
  quietTo_of_sublist (h ▸ List.Sublist.refl _)

theorem quietTo_append {db db' : Database}
    (h : ∃ created, db'.notifications = db.notifications ++ created ∧ ∀ n ∈ created, n.Ordinary) : QuietTo db db' := by
  obtain ⟨created, h, hordinary⟩ := h
  exact ⟨db.notifications, created, h, List.Sublist.refl _, hordinary⟩

theorem QuietTo.trans {db db₁ db₂ : Database} (h₁ : QuietTo db db₁) (h₂ : QuietTo db₁ db₂) : QuietTo db db₂ := by
  obtain ⟨kept₁, created₁, heq₁, hkept₁, hordinary₁⟩ := h₁
  obtain ⟨kept₂, created₂, heq₂, hkept₂, hordinary₂⟩ := h₂
  rw [heq₁, List.sublist_append_iff] at hkept₂
  obtain ⟨old, new, rfl, hold, hnew⟩ := hkept₂
  refine ⟨old, new ++ created₂, by rw [heq₂, List.append_assoc], hold.trans hkept₁, ?_⟩
  intro n hn
  rcases List.mem_append.mp hn with hn | hn
  · exact hordinary₁ n (hnew.subset hn)
  · exact hordinary₂ n hn

theorem foldl_notifications {α : Type} {f : Database → α → Database}
    (hf : ∀ d a, (f d a).notifications = d.notifications) (items : List α) (d : Database) :
    (items.foldl f d).notifications = d.notifications := by
  induction items generalizing d with
  | nil => rfl
  | cons a items ih => rw [List.foldl_cons, ih, hf]

theorem ensureFramework_notifications (db : Database) : (ensureFramework db).2.notifications = db.notifications := by
  unfold ensureFramework
  split
  · split <;> rfl
  · rfl

theorem createEvaluation_quiet {db : Database} {env : Env} {user : CurrentUser} {personnelId : Nat} :
    Gives (QuietTo db) (createEvaluation db env user personnelId) := by
  refine gives_bind fun _ => gives_bind fun _ => gives_bind fun _ => gives_bind fun _ => gives_bind fun _ =>
    gives_bind fun _ => gives_bind fun _ => gives_pure (quietTo_of_eq ?_)
  exact ensureFramework_notifications db

theorem runBulkCreate_quiet {db : Database} {env : Env} {user : CurrentUser} {cohort : CohortFilter} :
    Gives (QuietTo db) (runBulkCreate db env user cohort) := by
  refine gives_bind fun _ => gives_bind fun _ => gives_pure (quietTo_append ⟨bulkNotices env (plannedAccess db (loadCohort db cohort)), ?_, ?_⟩)
  · have hexecuted : (executeBulk db env (loadCohort db cohort)).notifications = db.notifications := by
      unfold executeBulk
      dsimp only
      exact (foldl_notifications (by intro d access; rfl) _ _).trans (ensureFramework_notifications db)
    show (executeBulk db env _).notifications ++ _ = _
    rw [hexecuted]
  · intro n hn
    obtain ⟨k, _, hn⟩ := List.mem_flatMap.mp hn
    exact notify_ordinary n hn

theorem insertOwnAccount_notifications (db : Database) (username : Option String) (personnelId : Nat) :
    (insertOwnAccount db username personnelId).notifications = db.notifications := by
  unfold insertOwnAccount
  split <;> rfl

theorem importRow_notifications (env : Env) (user : CurrentUser) (db : Database) (row : ImportRow) :
    (importRow env user db row).notifications = db.notifications := by
  have haccess : ∀ d chain k, (insertAccess d chain k user.id).notifications = d.notifications := by
    intro d chain k
    unfold insertAccess
    split <;> rfl
  unfold importRow
  dsimp only
  show (insertOwnAccount _ _ _).notifications = _
  rw [insertOwnAccount_notifications, haccess]
  rfl

theorem closeAccount_quiet (db : Database) (env : Env) (user : CurrentUser) (person : Personnel) :
    QuietTo db (closeAccount db env user person) := by
  unfold closeAccount
  split
  · exact quietTo_of_eq rfl
  · dsimp only
    split
    · exact quietTo_append ⟨_, rfl, notifyVacatedSeats_ordinary⟩
    · exact quietTo_append ⟨_, rfl, notifyVacatedSeats_ordinary⟩

theorem cancelOnDeparture_quiet {db : Database} {env : Env} {user : CurrentUser} {person : Personnel} :
    Gives (QuietTo db) (cancelOnDeparture db env user person) := by
  unfold cancelOnDeparture
  split
  · exact gives_pure (quietTo_of_eq rfl)
  · refine (applyTransition_quiet nothingBefore_quiet).bind fun w hw => gives_pure ?_
    exact quietTo_append ⟨_, rfl, hw⟩

theorem clearManagersSupervisor_quiet (db : Database) (env : Env) (user : CurrentUser) (person : Personnel) :
    QuietTo db (clearManagersSupervisor db env user person) := by
  unfold clearManagersSupervisor
  split
  · exact quietTo_of_eq rfl
  · split
    · exact quietTo_of_eq rfl
    · exact quietTo_of_eq rfl

theorem closeOutIfLeaving_quiet {db : Database} {env : Env} {user : CurrentUser} {leaving : Bool}
    {person : Personnel} : Gives (QuietTo db) (closeOutIfLeaving db env user leaving person) := by
  unfold closeOutIfLeaving
  split
  · refine cancelOnDeparture_quiet.bind fun d hd => gives_pure ?_
    exact hd.trans (closeAccount_quiet d env user person)
  · exact gives_pure (quietTo_of_eq rfl)

theorem updatePersonnel_quiet {db : Database} {env : Env} {user : CurrentUser} {personnelId : Nat}
    {payload : PersonnelUpdate} : Gives (QuietTo db) (updatePersonnel db env user personnelId payload) := by
  refine gives_bind fun _ => gives_bind fun _ => gives_bind fun _ => gives_bind fun _ => gives_bind fun _ =>
    gives_bind fun _ => closeOutIfLeaving_quiet.bind fun d hd => gives_pure ?_
  exact QuietTo.trans (quietTo_of_eq rfl) (hd.trans (clearManagersSupervisor_quiet d env user _))

theorem operation_quiet {db : Database} {env : Env} {user : CurrentUser} (operation : Operation) :
    Gives (QuietTo db) (operation.run db env user) := by
  cases operation with
  | onRecord recordId op =>
    refine gives_bind fun _ => gives_bind fun _ => gives_bind fun r => (run_quiet op).bind fun w hw => gives_pure ?_
    exact quietTo_append ⟨_, rfl, hw⟩
  | createEvaluation personnelId => exact createEvaluation_quiet
  | runBulkCreate cohort => exact runBulkCreate_quiet
  | createUser payload =>
    exact gives_bind fun _ => gives_bind fun _ => gives_bind fun _ => gives_bind fun _ =>
      gives_pure (quietTo_of_eq rfl)
  | updateUser userId payload =>
    exact gives_bind fun _ => gives_bind fun _ => gives_bind fun _ => gives_bind fun _ => gives_bind fun _ =>
      gives_bind fun _ => gives_pure (quietTo_of_eq rfl)
  | deleteUser userId =>
    refine gives_bind fun _ => gives_bind fun _ => gives_bind fun _ => gives_bind fun _ => gives_bind fun _ =>
      gives_pure (quietTo_of_sublist ?_)
    exact List.filter_sublist
  | upsertAccess personnelId payload =>
    refine gives_bind fun _ => gives_bind fun _ => gives_bind fun _ => gives_bind fun _ => gives_bind fun _ =>
      gives_bind fun _ => gives_bind fun _ => gives_bind fun _ => gives_pure (quietTo_of_eq ?_)
    show (writeAccess db personnelId _ user.id).notifications = _
    unfold writeAccess
    split <;> rfl
  | createPersonnel payload username =>
    refine gives_bind fun _ => gives_bind fun _ => gives_bind fun _ => gives_bind fun _ =>
      gives_pure (quietTo_of_eq ?_)
    exact insertOwnAccount_notifications ..
  | importPersonnel rows =>
    refine gives_bind fun _ => gives_bind fun _ => gives_pure (quietTo_of_eq ?_)
    exact foldl_notifications (importRow_notifications env user) _ db
  | updatePersonnel personnelId payload => exact updatePersonnel_quiet
  | createOrgUnit site name =>
    exact gives_bind fun _ => gives_bind fun _ => gives_bind fun _ => gives_pure (quietTo_of_eq rfl)
  | updateOrgUnit unitId payload =>
    exact gives_bind fun _ => gives_bind fun _ => gives_bind fun _ => gives_bind fun _ => gives_bind fun _ =>
      gives_pure (quietTo_of_eq rfl)
  | deleteOrgUnit unitId =>
    exact gives_bind fun _ => gives_bind fun _ => gives_bind fun _ => gives_pure (quietTo_of_eq rfl)
  | createPeriod name startsOn endsOn =>
    exact gives_bind fun _ => gives_bind fun _ => gives_bind fun _ =>
      gives_pure (quietTo_append ⟨_, rfl, notify_ordinary⟩)
  | updatePeriod periodId name startsOn endsOn =>
    exact gives_bind fun _ => gives_bind fun _ => gives_bind fun _ => gives_bind fun _ => gives_bind fun _ =>
      gives_pure (quietTo_of_eq rfl)
  | closePeriod periodId force =>
    exact gives_bind fun _ => gives_bind fun _ => gives_bind fun _ => gives_bind fun _ =>
      gives_pure (quietTo_of_eq rfl)
  | deletePeriod periodId =>
    exact gives_bind fun _ => gives_bind fun _ => gives_bind fun _ => gives_pure (quietTo_of_eq rfl)
  | createIndicator «section» category description => exact gives_bind fun _ => gives_pure (quietTo_of_eq rfl)
  | updateIndicator indicatorId payload =>
    refine gives_bind fun _ => gives_bind fun _ => gives_bind fun _ => gives_pure (quietTo_of_eq ?_)
    dsimp only [Database.log]
    split <;> rfl
  | replaceIndicator indicatorId category description reason =>
    exact gives_bind fun _ => gives_bind fun _ => gives_bind fun _ => gives_pure (quietTo_of_eq rfl)
  | deleteIndicator indicatorId =>
    exact gives_bind fun _ => gives_bind fun _ => gives_bind fun _ => gives_bind fun _ =>
      gives_pure (quietTo_of_eq rfl)
  | reorderIndicators «section» orderedIds =>
    exact gives_bind fun _ => gives_bind fun _ => gives_pure (quietTo_of_eq rfl)
  | createScheme payload =>
    refine gives_bind fun _ => gives_bind fun _ => ?_
    split
    · exact gives_pure (quietTo_of_eq rfl)
    · exact gives_error _
  | activateScheme schemeId =>
    refine gives_bind fun _ => gives_bind fun scheme => Gives.bind (q := QuietTo db) ?_ fun d hd => gives_pure hd
    exact gives_bind fun _ => gives_bind fun _ => gives_bind fun _ => gives_pure (quietTo_of_eq rfl)
  | deleteDraft schemeId =>
    exact gives_bind fun _ => gives_bind fun _ => gives_bind fun _ => gives_pure (quietTo_of_eq rfl)

/-- No request creates a notice of a sweep's kind. -/
theorem settled_quiet (db : Database) (req : Request) : QuietTo db (settled db req) := by
  unfold settled
  split
  · next db' hstep =>
    obtain ⟨user, _, hrun⟩ := bind_eq_ok.mp hstep
    exact operation_quiet req.operation db' hrun
  · exact quietTo_of_eq rfl

/-! ## Windows -/

/-- The kinds of the sweeps, and for how many days each does not say the same again. -/
def SweepSettings.windows (S : SweepSettings) : List (String × Nat) :=
  [("contract_expiry", S.notificationDedupDays), ("sla", S.slaReminderDays), ("orphaned", S.notificationDedupDays)]

/-- If the later notice says the same again, it comes after the window. -/
def Spaced (withinDays : Nat) (n m : Notification) : Prop :=
  n.onceKey = m.onceKey → n.createdAt + withinDays * 86400 < m.createdAt

def ofKind (kind : String) (notifications : List Notification) : List Notification :=
  notifications.filter fun n => n.kind = some kind.toList

/-- Nobody was told the same twice within the window of its kind. -/
def ToldOnce (S : SweepSettings) (notifications : List Notification) : Prop :=
  ∀ window ∈ S.windows, (ofKind window.1 notifications).Pairwise (Spaced window.2)

theorem window_kind {S : SweepSettings} {window : String × Nat} (h : window ∈ S.windows) : window.1 ∈ sweepKinds := by
  have hkinds : S.windows.map Prod.fst = sweepKinds := rfl
  rw [← hkinds]
  exact List.mem_map_of_mem h

theorem ofKind_append (kind : String) (old new : List Notification) :
    ofKind kind (old ++ new) = ofKind kind old ++ ofKind kind new :=
  List.filter_append ..

theorem ofKind_self {kind : String} {l : List Notification} (h : ∀ n ∈ l, n.kind = some kind.toList) :
    ofKind kind l = l := by
  apply List.filter_eq_self.mpr
  intro n hn
  exact decide_eq_true (h n hn)

theorem ofKind_other {kind other : String} {l : List Notification} (h : ∀ n ∈ l, n.kind = some other.toList)
    (hne : other.toList ≠ kind.toList) : ofKind kind l = [] := by
  apply List.filter_eq_nil_iff.mpr
  intro n hn heq
  rw [decide_eq_true_eq, h n hn, Option.some.injEq] at heq
  exact hne heq

theorem ToldOnce.sublist {S : SweepSettings} {l l' : List Notification} (h : ToldOnce S l) (hsub : l'.Sublist l) :
    ToldOnce S l' := by
  intro window hwindow
  exact (h window hwindow).sublist (hsub.filter _)

/-- What requests tell does not matter to what is told once. -/
theorem ToldOnce.quiet {S : SweepSettings} {db db' : Database} {pending : List Notification}
    (h : ToldOnce S (db.notifications ++ pending)) (hquiet : QuietTo db db') :
    ToldOnce S (db'.notifications ++ pending) := by
  obtain ⟨kept, created, heq, hkept, hordinary⟩ := hquiet
  have htold : ToldOnce S (kept ++ pending) := h.sublist (hkept.append_right pending)
  intro window hwindow
  have hnone : ofKind window.1 created = [] := by
    apply List.filter_eq_nil_iff.mpr
    intro n hn hkind
    exact hordinary n hn window.1 (window_kind hwindow) (of_decide_eq_true hkind)
  rw [heq, ofKind_append, ofKind_append, hnone, List.append_nil, ← ofKind_append]
  exact htold window hwindow

/-! ## What the sweeps tell -/

/-- The notices are told now, under one of the keys, and are of the kind. -/
def TellsOf (env : Env) (keys : List String) (kind : String) (items : List Notification) : Prop :=
  ∀ n ∈ items, n.createdAt = env.now ∧ n.dedupKey ∈ keys.map some ∧ n.kind = some kind.toList

theorem contractNotices_tell (db : Database) (env : Env) (days : Nat) :
    TellsOf env ((expiringPeople db env days).map contractKey) "contract_expiry" (contractNotices db env days) := by
  intro n hn
  obtain ⟨person, hperson, hn⟩ := List.mem_flatMap.mp hn
  obtain ⟨hrId, _, rfl⟩ := List.mem_map.mp hn
  refine ⟨rfl, List.mem_map_of_mem (List.mem_map_of_mem hperson), ?_⟩
  show some (keyKind ("contract_expiry:" ++ _)) = _
  rw [show ("contract_expiry:" : String) = "contract_expiry" ++ ":" by decide, keyKind_append (by decide)]

theorem dedupKey_kind {kind : String} (hkind : ':' ∉ kind.toList) (r : EvaluationRecord) :
    keyKind (dedupKey kind r) = kind.toList := by
  unfold dedupKey
  rw [String.append_assoc, String.append_assoc]
  exact keyKind_append hkind _

theorem slaReminders_tell (db : Database) (env : Env) (days : Nat) :
    TellsOf env ((stalledRecords db env days).map (dedupKey "sla")) "sla" (slaReminders db env days) := by
  intro n hn
  obtain ⟨r, hr, hn⟩ := List.mem_flatMap.mp hn
  obtain ⟨ownerId, _, rfl⟩ := List.mem_map.mp hn
  exact ⟨rfl, List.mem_map_of_mem (List.mem_map_of_mem hr), congrArg some (dedupKey_kind (by decide) r)⟩

theorem orphanReports_tell (db : Database) (env : Env) :
    TellsOf env ((ownedRecords db).map (dedupKey "orphaned")) "orphaned" (orphanReports db env) := by
  intro n hn
  obtain ⟨r, hr, hn⟩ := List.mem_flatMap.mp hn
  obtain ⟨hrId, _, rfl⟩ := List.mem_map.mp hn
  refine ⟨rfl, List.mem_map_of_mem (List.mem_map_of_mem (List.mem_filter.mp hr).1), ?_⟩
  exact congrArg some (dedupKey_kind (by decide) r)

section

variable {db : Database} {env : Env} {keys : List String} {kind : String} {items : List Notification}

theorem TellsOf.kept (h : TellsOf env keys kind items) {seen : List (Nat × Option String)} :
    ∀ n ∈ once Notification.onceKey seen items, n.kind = some kind.toList := by
  intro n hn
  exact (h n (mem_of_mem_once hn).1).2.2

/-- A sweep repeats nothing that the database has within its window. -/
theorem TellsOf.spaced {withinDays : Nat} (h : TellsOf env keys kind items)
    (hold : (ofKind kind db.notifications).Pairwise (Spaced withinDays)) :
    (ofKind kind db.notifications ++
      once Notification.onceKey (alreadyNotified db env keys withinDays) items).Pairwise (Spaced withinDays) := by
  rw [List.pairwise_append]
  refine ⟨hold, (once_pairwise _ _ items).imp fun hne heq => absurd heq hne, ?_⟩
  intro n hn m hm hsame
  obtain ⟨hitem, hnew⟩ := mem_of_mem_once hm
  obtain ⟨hnow, hkey, _⟩ := h m hitem
  rw [hnow]
  by_contra hwithin
  apply hnew
  rw [← hsame]
  refine List.mem_map_of_mem (List.mem_filter.mpr ⟨(List.mem_filter.mp hn).1, ?_⟩)
  have hdedup : n.dedupKey = m.dedupKey := congrArg Prod.snd hsame
  have hin : n.isWithin env withinDays = true := decide_eq_true (not_lt.mp hwithin)
  rw [hin, hdedup, Bool.and_true]
  exact decide_eq_true hkey

theorem runAllSweeps_spaced {S : SweepSettings} (hdays : env.notificationDedupDays = S.notificationDedupDays)
    (h : ToldOnce S db.notifications) : ToldOnce S (db.notifications ++ (runAllSweeps S db env).1) := by
  have hcontract := contractNotices_tell db env S.contractExpiryAlertDays
  have hsla := slaReminders_tell db env S.slaReminderDays
  have horphan := orphanReports_tell db env
  intro window hwindow
  have hold := h window hwindow
  unfold SweepSettings.windows at hwindow
  unfold runAllSweeps runContractExpirySweep runSlaSweep runOrphanedCaseSweep
  simp only [List.mem_cons, List.not_mem_nil, or_false] at hwindow
  rw [hdays, ofKind_append, ofKind_append, ofKind_append]
  obtain rfl | rfl | rfl := hwindow
  · rw [ofKind_self hcontract.kept, ofKind_other hsla.kept, ofKind_other horphan.kept, List.append_nil,
      List.append_nil]
    · exact hcontract.spaced hold
    · show "orphaned".toList ≠ "contract_expiry".toList
      decide
    · show "sla".toList ≠ "contract_expiry".toList
      decide
  · rw [ofKind_other hcontract.kept, ofKind_self hsla.kept, ofKind_other horphan.kept, List.nil_append,
      List.append_nil]
    · exact hsla.spaced hold
    · show "orphaned".toList ≠ "sla".toList
      decide
    · show "contract_expiry".toList ≠ "sla".toList
      decide
  · rw [ofKind_other hcontract.kept, ofKind_other hsla.kept, ofKind_self horphan.kept, List.nil_append,
      List.nil_append]
    · exact horphan.spaced hold
    · show "sla".toList ≠ "orphaned".toList
      decide
    · show "contract_expiry".toList ≠ "orphaned".toList
      decide

end

/-! ## All workers -/

/-- A call that works has its connection, and with what it is about to commit nobody is told twice. -/
def SweepCall.Keeps (S : SweepSettings) (db : Database) (call : SweepCall) : Prop :=
  (call.progress.works = true → call.severed = false) ∧ ToldOnce S (db.notifications ++ call.progress.pending)

structure Steady (S : SweepSettings) (c : Cluster) : Prop where
  locked : Locked c
  told : ToldOnce S c.db.notifications
  keeps : ∀ connection call, c.calls connection = some call → call.Keeps S c.db

/-- No connection is lost while its call works. -/
def Undisturbed (x : Taken Cluster ClusterEvent) : Prop :=
  ∀ connection call, x.label = .severed connection → x.before.calls connection = some call →
    call.progress.works = false

variable {S : SweepSettings} {c c' : Cluster} {connection : Nat} {call : SweepCall}

theorem keeps_of_nothing {db : Database} (h : ToldOnce S db.notifications)
    (hwhole : call.progress.works = true → call.severed = false) (hpending : call.progress.pending = []) :
    call.Keeps S db := by
  refine ⟨hwhole, ?_⟩
  rw [hpending, List.append_nil]
  exact h

theorem keeps_of_idle {db : Database} (h : ToldOnce S db.notifications) (hidle : call.progress.works = false) :
    call.Keeps S db :=
  keeps_of_nothing h (fun hworks => absurd hworks (by simp [hidle])) (pending_of_idle hidle)

theorem Steady.leads (h : Steady S c) (hcall : c.calls connection = some call)
    (hworks : call.progress.works = true) : c.Leads connection :=
  ⟨call, hcall, (h.locked.fits connection call hcall).2 hworks, (h.keeps connection call hcall).1 hworks⟩

theorem Steady.ask (h : Steady S c) (hcall : c.calls connection = some call) (hprogress : call.progress = .asking) :
    Steady S (c.ask connection call) := by
  have hlocked := h.locked.ask hcall hprogress
  unfold Cluster.ask at hlocked ⊢
  split at hlocked
  · next hsevered =>
    rw [if_pos hsevered]
    exact ⟨hlocked, h.told, allCalls_update h.keeps (keeps_of_idle h.told rfl)⟩
  · next hsevered =>
    rw [if_neg hsevered]
    split at hlocked
    · exact ⟨hlocked, h.told, allCalls_update h.keeps (keeps_of_idle h.told rfl)⟩
    · refine ⟨hlocked, h.told, allCalls_update h.keeps (keeps_of_nothing h.told ?_ rfl)⟩
      intro _
      simpa using hsevered

/-- What a call commits nobody else has in hand. -/
theorem Steady.committed (h : Steady S c) (hcall : c.calls connection = some call)
    (hworks : call.progress.works = true) {db : Database}
    (hdb : db.notifications = c.db.notifications ++ call.progress.pending) {k : Nat} {other : SweepCall}
    (hother : c.calls k = some other) (hk : k ≠ connection) : other.Keeps S db := by
  apply keeps_of_idle
  · rw [hdb]
    exact (h.keeps connection call hcall).2
  · by_contra hbusy
    rw [Bool.not_eq_false] at hbusy
    exact hk (h.locked.guards.exclusive (h.leads hother hbusy) (h.leads hcall hworks))

theorem Steady.brought {further : SweepProgress} (h : Steady S c) (hcall : c.calls connection = some call)
    (hlocked : Locked c') (hbrought : Brought S c c' call.progress further)
    (hcalls : c'.calls = Function.update c.calls connection (some { call with progress := further })) :
    Steady S c' := by
  have hwhole : further.works = true → call.severed = false :=
    fun hworks => (h.keeps connection call hcall).1 (hbrought.works hworks)
  obtain ⟨hdb, hpending⟩ | ⟨env, hdays, hdb, hpending⟩ | ⟨hworks, hdb, hpending⟩ := hbrought.notices
  · refine ⟨hlocked, hdb ▸ h.told, ?_⟩
    rw [hcalls, hdb]
    exact allCalls_update h.keeps (keeps_of_nothing h.told hwhole hpending)
  · refine ⟨hlocked, hdb ▸ h.told, ?_⟩
    rw [hcalls, hdb]
    refine allCalls_update h.keeps ⟨hwhole, ?_⟩
    rw [hpending]
    exact runAllSweeps_spaced hdays h.told
  · have htold : ToldOnce S c'.db.notifications := by
      rw [hdb]
      exact (h.keeps connection call hcall).2
    refine ⟨hlocked, htold, ?_⟩
    intro k other hother
    rw [hcalls] at hother
    by_cases hk : k = connection
    · rw [hk, Function.update_self] at hother
      cases hother
      exact keeps_of_nothing htold hwhole hpending
    · rw [Function.update_of_ne hk] at hother
      exact h.committed hcall hworks hdb hother hk

theorem Steady.step {e : ClusterEvent} (h : Steady S c) (hstep : ClusterSteps S c e c')
    (hundisturbed : Undisturbed ⟨c, e, c'⟩) : Steady S c' := by
  have hlocked := h.locked.step hstep
  unfold ClusterSteps at hstep
  cases e with
  | request req =>
    cases hstep
    have hquiet := settled_quiet c.db req
    refine ⟨hlocked, ?_, ?_⟩
    · have hafter := @ToldOnce.quiet S c.db _ [] (by simpa using h.told) hquiet
      simpa using hafter
    · intro k other hother
      obtain ⟨hwhole, hpending⟩ := h.keeps k other hother
      exact ⟨hwhole, hpending.quiet hquiet⟩
  | called connection process trigger =>
    simp only [Cluster.next] at hstep
    split at hstep
    · cases hstep
    · cases hstep
      exact ⟨hlocked, h.told, allCalls_update h.keeps (keeps_of_idle h.told rfl)⟩
  | moved connection move =>
    obtain ⟨call, hcall, hmove⟩ := Option.bind_eq_some_iff.mp hstep
    obtain ⟨hprogress, rfl⟩ | ⟨_, rfl⟩ | ⟨further, hbrought, hcalls⟩ := proceed_cases hmove
    · exact h.ask hcall hprogress
    · exact ⟨hlocked, h.told, fun k other hother => h.keeps k other (release_calls hother)⟩
    · exact h.brought hcall hlocked hbrought hcalls
  | severed connection =>
    cases hstep
    refine ⟨hlocked, h.told, ?_⟩
    intro k other hother
    obtain ⟨before, hbefore, rfl⟩ := sever_calls hother
    obtain ⟨hwhole, hpending⟩ := h.keeps k before hbefore
    refine ⟨?_, hpending⟩
    intro hworks
    have hother : k ≠ connection := by
      intro hk
      rw [hk] at hbefore
      cases (hundisturbed connection before rfl hbefore).symm.trans hworks
    simp [hwhole hworks, hother]
  | crashed process =>
    cases hstep
    exact ⟨hlocked, h.told, fun k other hother => h.keeps k other (crash_calls.mp hother).1⟩

theorem Started.steady (h : Started c) : Steady S c := by
  refine ⟨h.locked, ?_, ?_⟩
  · rw [h.notifications]
    intro window _
    exact List.Pairwise.nil
  · intro k call hcall
    cases (h.calls k).symm.trans hcall

/-- In every run where no call loses its connection while it works, nobody is told the same twice within the window of
its kind. -/
theorem nobody_is_told_twice {tr : List (Taken Cluster ClusterEvent)} (h : ClusterRun S tr c)
    (hundisturbed : ∀ x ∈ tr, Undisturbed x) : ToldOnce S c.db.notifications := by
  have hsteady : Steady S c := by
    apply h.invariant_of_steps _ _ hundisturbed
    · intro c₀ hstarted
      exact hstarted.steady
    · intro before e after hbefore hstep hcondition
      exact hbefore.step hstep hcondition
  exact hsteady.told

/-! ### A week later -/

def Cluster.after (S : SweepSettings) (c : Cluster) (events : List ClusterEvent) : Option Cluster :=
  events.foldlM (Cluster.next S) c

def ClusterEvent.severs : ClusterEvent → Bool
  | .severed _ => true
  | _ => false

theorem run_after {tr : List (Taken Cluster ClusterEvent)} {events : List ClusterEvent} (h : ClusterRun S tr c)
    (hundisturbed : ∀ x ∈ tr, Undisturbed x) (hafter : c.after S events = some c')
    (hevents : ∀ e ∈ events, e.severs = false) : ∃ tr', ClusterRun S tr' c' ∧ ∀ x ∈ tr', Undisturbed x := by
  induction events generalizing tr c with
  | nil =>
    cases hafter
    exact ⟨tr, h, hundisturbed⟩
  | cons e events ih =>
    obtain ⟨c₁, hstep, hafter⟩ := Option.bind_eq_some_iff.mp hafter
    rw [List.forall_mem_cons] at hevents
    apply ih (Run.cons h hstep) _ hafter hevents.2
    rw [List.forall_mem_cons]
    refine ⟨?_, hundisturbed⟩
    intro connection call hlabel
    have hsevers := hevents.1
    rw [show e = .severed connection from hlabel] at hsevers
    cases hsevers

def daysLater (days : Nat) : Env := { someDay with now := days * 86400 }

/-- A call, from its beginning to its end. -/
def sweptOn (connection : Nat) (env : Env) : List ClusterEvent :=
  [.called connection connection .scheduler, .moved connection .ask, .moved connection (.flush env.now),
    .moved connection (.sweep env), .moved connection .commit, .moved connection (.record env.now),
    .moved connection .release]

theorem told_again_after_a_week :
    ∃ tr c, ClusterRun defaultSettings tr c ∧ c.db.notifications.length = 4 ∧
      ToldOnce defaultSettings c.db.notifications := by
  have hlength : ((quietCluster.after defaultSettings
      (sweptOn 1 someDay ++ sweptOn 2 (daysLater 3) ++ sweptOn 1 (daysLater 8))).map
        fun c => c.db.notifications.length) = some 4 := by decide +kernel
  obtain ⟨c, hafter, hlength⟩ := Option.map_eq_some_iff.mp hlength
  obtain ⟨tr, hrun, hundisturbed⟩ := run_after (Run.nil quietCluster_started) (List.forall_mem_nil _) hafter (by decide)
  exact ⟨tr, c, hrun, hlength, nobody_is_told_twice hrun hundisturbed⟩

-- The connection that holds the lock is lost in the middle of the sweep, and the other worker tells it as well.
example : ((quietCluster.after defaultSettings
    ((sweptOn 1 someDay).take 4 ++ [.severed 1] ++ sweptOn 2 someDay ++ [.moved 1 .commit])).map
      fun c => c.db.notifications.length) = some 4 := by decide +kernel

end NexaHR
