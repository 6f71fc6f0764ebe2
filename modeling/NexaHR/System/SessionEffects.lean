import NexaHR.System.GuardSteps
import NexaHR.System.PlatformEffects

/-! # What a request does to the sessions

A session is never changed back: what was rotated or revoked stays so, and a new session has an identifier
that was not drawn before.

* `RowLater`, `SessionsLater`: a row, and the table, after some steps.
* `later_of_steps`, `later_of_run`: every request, and so every run, leads to later sessions.
* `RotationEnd`, `Exchange`: the three ends of an exchange, and of the request for it.
* `Settled`: what holds of a session stays so, also after its row is purged.
-/

namespace NexaHR

open Foundations

set_option autoImplicit false

/-- The same session, later. -/
structure RowLater (s s' : AuthSession) : Prop where
  id_eq : s'.id = s.id
  jti_eq : s'.jti = s.jti
  userId_eq : s'.userId = s.userId
  expiresAt_eq : s'.expiresAt = s.expiresAt
  revoked : s.revokedAt ≠ none → s'.revokedAt ≠ none
  rotated : s.rotatedAt ≠ none → s'.rotatedAt = s.rotatedAt

/-- No two sessions have one identifier, and all identifiers were drawn. -/
structure WellKeyed (p : Platform) : Prop where
  drawn : ∀ s ∈ p.authSessions, s.jti ≤ p.drawn
  unique : ∀ s ∈ p.authSessions, ∀ s' ∈ p.authSessions, s.jti = s'.jti → s = s'

structure SessionsLater (p p' : Platform) : Prop where
  drawn_le : p.drawn ≤ p'.drawn
  rows : ∀ s' ∈ p'.authSessions,
    (∃ s ∈ p.authSessions, RowLater s s') ∨ (p.drawn < s'.jti ∧ s'.jti ≤ p'.drawn)
  keyed : WellKeyed p → WellKeyed p'

section

variable {S : Deployment} {p p' p'' : Platform}

/-! ## Later sessions -/

theorem RowLater.refl (s : AuthSession) : RowLater s s := ⟨rfl, rfl, rfl, rfl, id, fun _ => rfl⟩

theorem RowLater.trans {s s' s'' : AuthSession} (h : RowLater s s') (h' : RowLater s' s'') :
    RowLater s s'' where
  id_eq := h'.id_eq.trans h.id_eq
  jti_eq := h'.jti_eq.trans h.jti_eq
  userId_eq := h'.userId_eq.trans h.userId_eq
  expiresAt_eq := h'.expiresAt_eq.trans h.expiresAt_eq
  revoked := fun hs => h'.revoked (h.revoked hs)
  rotated := by
    intro hs
    have heq := h.rotated hs
    rw [← heq]
    exact h'.rotated (by rw [heq]; exact hs)

/-- No session is added. -/
theorem SessionsLater.of_old (hdrawn : p'.drawn = p.drawn)
    (hrows : ∀ s' ∈ p'.authSessions, ∃ s ∈ p.authSessions, RowLater s s') : SessionsLater p p' where
  drawn_le := Nat.le_of_eq hdrawn.symm
  rows := fun s' hs' => Or.inl (hrows s' hs')
  keyed := by
    intro h
    constructor
    · intro s' hs'
      obtain ⟨s, hs, hlater⟩ := hrows s' hs'
      rw [hlater.jti_eq, hdrawn]
      exact h.drawn s hs
    · intro s' hs' t' ht' heq
      obtain ⟨s, hs, hslater⟩ := hrows s' hs'
      obtain ⟨t, ht, htlater⟩ := hrows t' ht'
      have hst : s = t := h.unique s hs t ht (by rw [← hslater.jti_eq, heq, htlater.jti_eq])
      apply Table.eq_of_id_eq hs' ht'
      show s'.id = t'.id
      rw [hslater.id_eq, htlater.id_eq, hst]

theorem SessionsLater.of_same (hsessions : p'.authSessions = p.authSessions)
    (hdrawn : p'.drawn = p.drawn) : SessionsLater p p' := by
  apply SessionsLater.of_old hdrawn
  intro s hs
  rw [hsessions] at hs
  exact ⟨s, hs, RowLater.refl s⟩

theorem SessionsLater.trans (h : SessionsLater p p') (h' : SessionsLater p' p'') :
    SessionsLater p p'' where
  drawn_le := Nat.le_trans h.drawn_le h'.drawn_le
  rows := by
    intro s'' hs''
    have hle := h.drawn_le
    have hle' := h'.drawn_le
    obtain ⟨s', hs', hlater'⟩ | ⟨hlt, hbound⟩ := h'.rows s'' hs''
    · obtain ⟨s, hs, hlater⟩ | ⟨hlt, hbound⟩ := h.rows s' hs'
      · exact Or.inl ⟨s, hs, hlater.trans hlater'⟩
      · right
        rw [hlater'.jti_eq]
        omega
    · right
      omega
  keyed := fun hp => h'.keyed (h.keyed hp)

/-! ## The operations on sessions -/

theorem revoked_later (s : AuthSession) (now : Nat) : RowLater s (s.revoked now) where
  id_eq := rfl
  jti_eq := rfl
  userId_eq := rfl
  expiresAt_eq := rfl
  revoked := fun _ => Option.some_ne_none now
  rotated := fun _ => rfl

theorem revokedFor_later (now userId : Nat) (s : AuthSession) : RowLater s (s.revokedFor now userId) := by
  unfold AuthSession.revokedFor
  split
  · exact revoked_later s now
  · exact RowLater.refl s

theorem mem_revokeAll {now userId : Nat} {s' : AuthSession}
    (h : s' ∈ (revokeAllForUser p now userId).authSessions) :
    ∃ s ∈ p.authSessions, s.revokedFor now userId = s' :=
  List.mem_map.mp h

theorem revokeAll_later (p : Platform) (now userId : Nat) :
    SessionsLater p (revokeAllForUser p now userId) := by
  refine SessionsLater.of_old rfl ?_
  intro s' hs'
  obtain ⟨s, hs, rfl⟩ := mem_revokeAll hs'
  exact ⟨s, hs, revokedFor_later now userId s⟩

/-- One session is written. -/
theorem put_later {s s' : AuthSession} (hs : s ∈ p.authSessions) (hlater : RowLater s s') :
    SessionsLater p { p with authSessions := p.authSessions.put s' } := by
  refine SessionsLater.of_old rfl ?_
  intro t ht
  obtain ⟨hold, -⟩ | rfl := Table.mem_put ht
  · exact ⟨t, hold, RowLater.refl t⟩
  · exact ⟨s, hs, hlater⟩

theorem filter_later (p : Platform) (keep : AuthSession → Bool) :
    SessionsLater p { p with authSessions := p.authSessions.filter keep } := by
  refine SessionsLater.of_old rfl ?_
  intro s hs
  exact ⟨s, (Table.mem_filter.mp hs).1, RowLater.refl s⟩

theorem mem_createSession {now userId : Nat} {userAgent ip : Option String} {s : AuthSession}
    (h : s ∈ (createSession S p now userId userAgent ip).2.authSessions) :
    s ∈ p.authSessions ∨
      s = newSession S now userId (p.drawn + 1) userAgent ip (p.authSessions.seq + 1) :=
  (Table.mem_insert (newSession_id S now userId (p.drawn + 1) userAgent ip)).mp h

theorem createSession_later (S : Deployment) (p : Platform) (now userId : Nat) (userAgent ip : Option String) :
    SessionsLater p (createSession S p now userId userAgent ip).2 where
  drawn_le := Nat.le_succ _
  rows := by
    intro s hs
    obtain hold | rfl := mem_createSession hs
    · exact Or.inl ⟨s, hold, RowLater.refl s⟩
    · exact Or.inr ⟨Nat.lt_succ_self _, Nat.le_refl _⟩
  keyed := by
    intro h
    constructor
    · intro s hs
      obtain hold | rfl := mem_createSession hs
      · exact Nat.le_succ_of_le (h.drawn s hold)
      · exact Nat.le_refl _
    · intro s hs t ht heq
      have hbound : ∀ u ∈ p.authSessions, u.jti ≠ p.drawn + 1 := by
        intro u hu hnew
        have := h.drawn u hu
        omega
      obtain hs | rfl := mem_createSession hs
      · obtain ht | rfl := mem_createSession ht
        · exact h.unique s hs t ht heq
        · exact absurd heq (hbound s hs)
      · obtain ht | rfl := mem_createSession ht
        · exact absurd heq.symm (hbound t ht)
        · rfl

theorem sessionOf_mem {jti : Nat} {session : AuthSession} (h : sessionOf p jti = some session) :
    session ∈ p.authSessions ∧ session.jti = jti :=
  ⟨List.mem_of_find?_eq_some h, by simpa using List.find?_some h⟩

theorem revokeSession_later (p : Platform) (now jti : Nat) : SessionsLater p (revokeSession p now jti) := by
  unfold revokeSession
  split
  · exact SessionsLater.of_same rfl rfl
  next session hsession =>
    split
    · exact put_later (sessionOf_mem hsession).1 (revoked_later session now)
    · exact SessionsLater.of_same rfl rfl

/-! ## Exchanges -/

/-- The successor is made, and the session of the exchanged token is rotated. -/
def rotatedTo (S : Deployment) (p : Platform) (now userId : Nat) (userAgent ip : Option String)
    (session : AuthSession) : Platform :=
  let created := (createSession S p now userId (orInherited userAgent session.userAgent)
    (orInherited ip session.ip)).2
  { created with
    authSessions := created.authSessions.put
      { session with rotatedAt := some now, replacedByJti := some (p.drawn + 1) } }

/-- The three ends of an exchange. -/
inductive RotationEnd (S : Deployment) (p : Platform) (now userId jti : Nat)
    (userAgent ip : Option String) : Rotation × Platform → Prop
  | reuse (hrefused : ∀ session, sessionOf p jti = some session →
        session.isDead now userId = true ∨
          ∃ r, session.rotatedAt = some r ∧ rotationGraceSeconds < now - r) :
      RotationEnd S p now userId jti userAgent ip (.refreshReuseError, revokeAllForUser p now userId)
  | inGrace (session : AuthSession) (hsession : sessionOf p jti = some session)
      (hlive : session.isDead now userId = false) (r : Nat) (hrotated : session.rotatedAt = some r)
      (hgrace : now - r ≤ rotationGraceSeconds) :
      RotationEnd S p now userId jti userAgent ip (.inGrace, p)
  | rotated (session : AuthSession) (hsession : sessionOf p jti = some session)
      (hlive : session.isDead now userId = false) (hfresh : session.rotatedAt = none) :
      RotationEnd S p now userId jti userAgent ip
        (.rotated (p.drawn + 1), rotatedTo S p now userId userAgent ip session)

theorem rotationEnd (S : Deployment) (p : Platform) (now userId jti : Nat) (userAgent ip : Option String) :
    RotationEnd S p now userId jti userAgent ip (rotateSession S p now userId jti userAgent ip) := by
  unfold rotateSession
  cases hsession : sessionOf p jti with
  | none => exact RotationEnd.reuse fun session h => by rw [hsession] at h; cases h
  | some session =>
    dsimp only
    by_cases hdead : session.isDead now userId = true
    · rw [if_pos hdead]
      refine RotationEnd.reuse ?_
      intro other hother
      rw [hsession] at hother
      cases hother
      exact Or.inl hdead
    · rw [if_neg hdead]
      have hlive : session.isDead now userId = false := by simpa using hdead
      cases hrotated : session.rotatedAt with
      | none => exact RotationEnd.rotated session hsession hlive hrotated
      | some r =>
        dsimp only
        by_cases hgrace : now - r ≤ rotationGraceSeconds
        · rw [if_pos hgrace]
          exact RotationEnd.inGrace session hsession hlive r hrotated hgrace
        · rw [if_neg hgrace]
          refine RotationEnd.reuse ?_
          intro other hother
          rw [hsession] at hother
          cases hother
          exact Or.inr ⟨r, hrotated, Nat.lt_of_not_le hgrace⟩

theorem mem_rotatedTo {now userId jti : Nat} {userAgent ip : Option String} {session : AuthSession}
    (hsession : sessionOf p jti = some session) :
    { session with rotatedAt := some now, replacedByJti := some (p.drawn + 1) } ∈
      (rotatedTo S p now userId userAgent ip session).authSessions := by
  apply Table.mem_put_self (a := session)
  · exact (Table.mem_insert (newSession_id S now userId (p.drawn + 1) _ _)).mpr
      (Or.inl (sessionOf_mem hsession).1)
  · rfl

theorem rotatedTo_later {now userId jti : Nat} {userAgent ip : Option String} {session : AuthSession}
    (hsession : sessionOf p jti = some session) (hfresh : session.rotatedAt = none) :
    SessionsLater p (rotatedTo S p now userId userAgent ip session) := by
  have hcreated := createSession_later S p now userId (orInherited userAgent session.userAgent)
    (orInherited ip session.ip)
  have hmem : session ∈ (createSession S p now userId (orInherited userAgent session.userAgent)
      (orInherited ip session.ip)).2.authSessions :=
    (Table.mem_insert (newSession_id S now userId (p.drawn + 1) _ _)).mpr
      (Or.inl (sessionOf_mem hsession).1)
  refine hcreated.trans (put_later hmem ?_)
  constructor
  · rfl
  · rfl
  · rfl
  · rfl
  · exact id
  · exact fun h => absurd hfresh h

theorem rotateSession_later (S : Deployment) (p : Platform) (now userId jti : Nat)
    (userAgent ip : Option String) :
    SessionsLater p (rotateSession S p now userId jti userAgent ip).2 := by
  have hend := rotationEnd S p now userId jti userAgent ip
  generalize rotateSession S p now userId jti userAgent ip = result at hend
  cases hend with
  | reuse _ => exact revokeAll_later p now userId
  | inGrace _ _ _ _ _ _ => exact SessionsLater.of_same rfl rfl
  | rotated session hsession _ hfresh => exact rotatedTo_later hsession hfresh

/-! ## Every request -/

theorem endTokens_later (p : Platform) (now userId : Nat) (passwordHash : String) (mustChange : Bool) :
    SessionsLater p (endTokens p now userId passwordHash mustChange) := by
  have hsame : SessionsLater p
      (p.withCredential userId ⟨passwordHash, mustChange, p.tokenVersion userId + 1⟩) :=
    SessionsLater.of_same rfl rfl
  exact hsame.trans (revokeAll_later _ now userId)

theorem withDirectory_later {result : Except HTTPException Database} {around : Platform → Platform}
    (h : ∀ db, result = .ok db → SessionsLater { p with db := db } (around { p with db := db })) :
    SessionsLater p (withDirectory p result around).2 := by
  cases result with
  | error e => exact SessionsLater.of_same rfl rfl
  | ok db =>
    have hsame : SessionsLater p { p with db := db } := SessionsLater.of_same rfl rfl
    exact hsame.trans (h db rfl)

theorem grantAll_sessions (p : Platform) (userId : Nat) (grantedBy : Option Nat) (cs : List Capability) :
    (grantAll p userId grantedBy cs).authSessions = p.authSessions ∧
      (grantAll p userId grantedBy cs).drawn = p.drawn := by
  induction cs generalizing p with
  | nil => exact ⟨rfl, rfl⟩
  | cons c cs ih => exact ih (grant p userId grantedBy c)

theorem applyDefault_later (p : Platform) (userId : Nat) :
    SessionsLater p (applyDefaultHrCapabilities p userId) := by
  obtain ⟨hsessions, hdrawn⟩ := grantAll_sessions (revokeWhere p fun row => row.userId = userId)
    userId none defaultHrCapabilities
  exact SessionsLater.of_same hsessions hdrawn

theorem AccountCall.later (S : Deployment) (p : Platform) (env : Env) (caller : CurrentUser)
    (call : AccountCall) : SessionsLater p (call.run S p env caller).2 := by
  cases call with
  | unlockUser userId =>
    dsimp only [AccountCall.run]
    unfold Platform.unlockUser unlock
    split
    · exact SessionsLater.of_same rfl rfl
    · dsimp only
      split <;> exact SessionsLater.of_same rfl rfl
  | setCapabilities userId desired =>
    dsimp only [AccountCall.run]
    unfold NexaHR.setCapabilities
    split
    · exact SessionsLater.of_same rfl rfl
    · obtain ⟨hsessions, hdrawn⟩ := grantAll_sessions
        (revokeWhere p fun row => row.userId = userId && !desired.contains row.capability) userId
        (some caller.id) (desired.dedup.filter fun c => !(capabilitiesOf p userId).contains c)
      exact SessionsLater.of_same hsessions hdrawn
  | createUser payload password =>
    refine withDirectory_later fun db _ => ?_
    dsimp only
    have hcreated : SessionsLater { p with db := db } (({ p with db := db } : Platform).withCredential
        (p.db.users.seq + 1) (temporaryCredential S password)) := SessionsLater.of_same rfl rfl
    split
    · exact hcreated.trans (applyDefault_later _ _)
    · exact hcreated
  | updateUser userId payload password =>
    refine withDirectory_later fun db _ => ?_
    dsimp only
    have hgranted : SessionsLater { p with db := db } (if p.entersHr userId payload then
        applyDefaultHrCapabilities { p with db := db } userId else { p with db := db }) := by
      split
      · exact applyDefault_later _ userId
      · exact SessionsLater.of_same rfl rfl
    cases password with
    | none => exact hgranted
    | some password => exact hgranted.trans (endTokens_later _ _ _ _ _)
  | deleteUser userId =>
    refine withDirectory_later fun db _ => ?_
    exact (filter_later { p with db := db } fun session => session.userId ≠ userId).trans
      (SessionsLater.of_same rfl rfl)
  | createPersonnel payload account =>
    refine withDirectory_later fun db _ => ?_
    cases account <;> exact SessionsLater.of_same rfl rfl
  | importPersonnel rows passwords =>
    refine withDirectory_later fun db _ => ?_
    generalize (db.users.rows.filter fun u => p.db.users.seq < u.id) = new
    have hfold : ∀ q : Platform,
        (new.foldl (fun q u => q.withCredential u.id (temporaryCredential S (passwords u.username)))
          q).authSessions = q.authSessions ∧
        (new.foldl (fun q u => q.withCredential u.id (temporaryCredential S (passwords u.username)))
          q).drawn = q.drawn := by
      induction new with
      | nil => exact fun q => ⟨rfl, rfl⟩
      | cons u new ih =>
        intro q
        exact ih (q.withCredential u.id (temporaryCredential S (passwords u.username)))
    obtain ⟨hsessions, hdrawn⟩ := hfold { p with db := db }
    exact SessionsLater.of_same hsessions hdrawn
  | updatePersonnel personnelId payload =>
    refine withDirectory_later fun db _ => ?_
    cases p.closingAccount personnelId payload with
    | none => exact SessionsLater.of_same rfl rfl
    | some account => exact endTokens_later _ _ _ _ _
  | elsewhere op =>
    refine withDirectory_later fun db _ => ?_
    exact SessionsLater.of_same rfl rfl

theorem issueLoginResponse_later (S : Deployment) (p : Platform) (v : Visit) (user : User) :
    SessionsLater p (issueLoginResponse S p v user).2 :=
  createSession_later S p v.env.now user.id v.userAgent v.ip

theorem run_later (S : Deployment) (p : Platform) (v : Visit) (call : PlatformCall) :
    SessionsLater p (call.run S p v).2 := by
  have hsame : SessionsLater p p := SessionsLater.of_same rfl rfl
  cases call with
  | login username password =>
    have hend := loginEnd S p v username password
    dsimp only [PlatformCall.run]
    generalize NexaHR.login S p v username password = answer at hend
    cases hend with
    | locked _ => exact hsame
    | failed _ e _ userId =>
      obtain ⟨attempts, log, notifications, hkept⟩ := failLogin_kept S p v username userId
      rw [hkept]
      exact SessionsLater.of_same rfl rfl
    | inactive => exact hsame
    | succeeded _ user _ _ =>
      have hcleared : SessionsLater p ((clearFailures p username).log
          [accountEvent v.env user.id "login_succeeded"]) := SessionsLater.of_same rfl rfl
      exact hcleared.trans (issueLoginResponse_later S _ v user)
  | refresh cookie =>
    dsimp only [PlatformCall.run]
    unfold NexaHR.refresh
    split
    · exact hsame
    next user jti _ =>
      have hrotated := rotateSession_later S p v.env.now user.id jti v.userAgent v.ip
      dsimp only
      split <;>
        next heq =>
          rw [heq] at hrotated
          exact hrotated
  | logout cookie =>
    dsimp only [PlatformCall.run]
    unfold NexaHR.logout
    split
    · exact hsame
    · exact revokeSession_later p _ _
  | changePassword bearer currentPassword newPassword =>
    dsimp only [PlatformCall.run]
    unfold NexaHR.changePassword
    split
    · exact hsame
    next user _ =>
      have hended : SessionsLater p ((endTokens p v.env.now user.id (S.hashPassword newPassword) false).log
          [accountEvent v.env user.id "password_changed_self"]) :=
        (endTokens_later p v.env.now user.id (S.hashPassword newPassword) false).trans
          (SessionsLater.of_same rfl rfl)
      exact hended.trans (issueLoginResponse_later S _ v user)
  | revokeMySession bearer sessionId =>
    dsimp only [PlatformCall.run]
    unfold NexaHR.revokeMySession
    split
    · exact hsame
    next session hown =>
      split
      · unfold ownSession at hown
        simp only [bind_eq_ok, pure_eq_ok, require_eq_ok] at hown
        obtain ⟨_, -, _, hget, -, -, rfl⟩ := hown
        exact (put_later (Table.mem_of_get? hget) (revoked_later _ v.env.now)).trans
          (SessionsLater.of_same rfl rfl)
      · exact hsame
  | signedIn bearer call =>
    dsimp only [PlatformCall.run]
    split
    · exact hsame
    · exact AccountCall.later S p v.env _ call
  | purgeStale => exact SessionsLater.of_same rfl rfl
  | purgeDeadSessions => exact filter_later p _

theorem later_of_steps {req : PlatformRequest} (h : PlatformSteps S p req p') : SessionsLater p p' := by
  rw [h.2]
  exact (run_later S p req.toVisit req.call).trans (SessionsLater.of_same rfl rfl)

theorem later_of_run {tr : List (Taken Platform PlatformRequest)} (h : PlatformRun S (· = p) tr p') :
    SessionsLater p p' :=
  h.relates (fun _ => SessionsLater.of_same rfl rfl) (fun _ _ _ hab hbc => hab.trans hbc)
    fun _ _ _ hsteps => later_of_steps hsteps

theorem wellKeyed_of_run {tr : List (Taken Platform PlatformRequest)} (h : PlatformRun S WellKeyed tr p) :
    WellKeyed p :=
  h.invariant (fun _ h0 => h0) fun _ _ _ hkeyed hsteps => (later_of_steps hsteps).keyed hkeyed

/-- Between the state before a step and the end of the run. -/
theorem later_of_cut {init : Platform → Prop} {new old : List (Taken Platform PlatformRequest)}
    {x : Taken Platform PlatformRequest} (h : PlatformRun S init (new ++ x :: old) p) :
    SessionsLater x.before p :=
  later_of_run h.from_before

/-! ## What stays true of a session -/

/-- The identifier was drawn, and the rows that bear it have the property: none does, once it is purged. -/
def Settled (P : AuthSession → Prop) (jti : Nat) (p : Platform) : Prop :=
  jti ≤ p.drawn ∧ ∀ s ∈ p.authSessions, s.jti = jti → P s

theorem Settled.later {P : AuthSession → Prop} {jti : Nat} (h : Settled P jti p)
    (hP : ∀ s s', RowLater s s' → P s → P s') (hlater : SessionsLater p p') : Settled P jti p' := by
  refine ⟨Nat.le_trans h.1 hlater.drawn_le, ?_⟩
  intro s' hs' hjti
  obtain ⟨s, hs, hrow⟩ | ⟨hnew, -⟩ := hlater.rows s' hs'
  · have hsame : s.jti = jti := by rw [← hjti, hrow.jti_eq]
    exact hP s s' hrow (h.2 s hs hsame)
  · have hdrawn := h.1
    omega

theorem Settled.mono {P Q : AuthSession → Prop} {jti : Nat} (h : Settled P jti p) (hPQ : ∀ s, P s → Q s) :
    Settled Q jti p :=
  ⟨h.1, fun s hs hjti => hPQ s (h.2 s hs hjti)⟩

theorem WellKeyed.settled {P : AuthSession → Prop} {s : AuthSession} (hp : WellKeyed p)
    (hs : s ∈ p.authSessions) (hP : P s) : Settled P s.jti p := by
  refine ⟨hp.drawn s hs, ?_⟩
  intro t ht hjti
  rw [hp.unique t ht s hs hjti]
  exact hP

/-! ## The step of an exchange -/

/-- The three ends of a refresh whose cookie may be exchanged. -/
inductive Exchange (S : Deployment) (x : Taken Platform PlatformRequest) (user : User) (jti : Nat) : Prop
  | reuse (hrefused : ∀ session, sessionOf x.before jti = some session →
        session.isDead x.label.env.now user.id = true ∨
          ∃ r, session.rotatedAt = some r ∧ rotationGraceSeconds < x.label.env.now - r)
      (hanswer : answerOf S x = .error invalidSession)
      (hafter : x.after.authSessions =
        (revokeAllForUser x.before x.label.env.now user.id).authSessions)
      (hdrawn : x.after.drawn = x.before.drawn)
  | inGrace (session : AuthSession) (hsession : sessionOf x.before jti = some session)
      (hlive : session.isDead x.label.env.now user.id = false) (r : Nat)
      (hrotated : session.rotatedAt = some r)
      (hgrace : x.label.env.now - r ≤ rotationGraceSeconds) (accessToken : Token)
      (hanswer : answerOf S x = .ok (.accessTokenResponse accessToken none))
      (hafter : x.after.authSessions = x.before.authSessions)
      (hdrawn : x.after.drawn = x.before.drawn)
  | rotated (session : AuthSession) (hsession : sessionOf x.before jti = some session)
      (hlive : session.isDead x.label.env.now user.id = false) (hfresh : session.rotatedAt = none)
      (accessToken cookie : Token)
      (hanswer : answerOf S x = .ok (.accessTokenResponse accessToken (some cookie)))
      (hcookie : cookie.jti = some (x.before.drawn + 1))
      (hafter : x.after.authSessions =
        (rotatedTo S x.before x.label.env.now user.id x.label.userAgent x.label.ip session).authSessions)
      (hdrawn : x.after.drawn = x.before.drawn + 1)

theorem exchange_of_refresh {x : Taken Platform PlatformRequest} {cookie : Option Token} {user : User}
    {jti : Nat} (hsteps : PlatformSteps S x.before x.label x.after)
    (hcall : x.label.call = .refresh cookie)
    (hbearer : refreshBearer x.before x.label.env.now cookie = .ok (user, jti)) :
    Exchange S x user jti := by
  have hserve : serve S x.before x.label =
      ((refresh S x.before x.label.toVisit cookie).1,
        { (refresh S x.before x.label.toVisit cookie).2 with clock := x.label.env.now }) := by
    unfold serve
    rw [hcall]
    rfl
  have hanswer : answerOf S x = (refresh S x.before x.label.toVisit cookie).1 := by
    unfold answerOf
    rw [hserve]
  have hafter := hsteps.2
  rw [hserve] at hafter
  unfold refresh at hanswer hafter
  rw [hbearer] at hanswer hafter
  dsimp only at hanswer hafter
  have hend := rotationEnd S x.before x.label.env.now user.id jti x.label.userAgent x.label.ip
  generalize rotateSession S x.before x.label.env.now user.id jti x.label.userAgent x.label.ip = result
    at hend hanswer hafter
  cases hend with
  | reuse hrefused =>
    exact Exchange.reuse hrefused hanswer (by rw [hafter]) (by rw [hafter]; rfl)
  | inGrace session hsession hlive r hrotated hgrace =>
    exact Exchange.inGrace session hsession hlive r hrotated hgrace _ hanswer (by rw [hafter])
      (by rw [hafter])
  | rotated session hsession hlive hfresh =>
    exact Exchange.rotated session hsession hlive hfresh _ _ hanswer rfl (by rw [hafter])
      (by rw [hafter]; rfl)

theorem refused_of_bearer {x : Taken Platform PlatformRequest} {cookie : Option Token} {e : HTTPException}
    (hcall : x.label.call = .refresh cookie)
    (hbearer : refreshBearer x.before x.label.env.now cookie = .error e) : answerOf S x = .error e := by
  unfold answerOf serve
  rw [hcall]
  dsimp only [PlatformCall.run]
  unfold NexaHR.refresh
  rw [hbearer]

end

end NexaHR
