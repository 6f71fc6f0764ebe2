import NexaHR.System.PlatformEffects
import NexaHR.System.PlatformStep
import NexaHR.System.SessionEffects

/-! # The lineage of refresh tokens

A refresh token is exchanged once. What happens when it comes again depends on how long ago that was, and on
whether its session was revoked meanwhile.

* `successionAt`: the exchanged token and its successor, at a step that made one.
* `refresh_lineage`: no session has two successors; a reused token costs its account all sessions; no
  presentation of a rotated token makes a session.
* `revoked_token_revokes_nothing`: the checks that come before the session spare the account.
-/

namespace NexaHR

open Foundations

set_option autoImplicit false

/-- The identifiers of the presented token and of the cookie that came back for it. -/
def successionAt (S : Deployment) (x : Taken Platform PlatformRequest) : Option (Nat × Nat) :=
  match x.label.call, answerOf S x with
  | .refresh (some token), .ok (.accessTokenResponse _ (some cookie)) =>
    token.jti.bind fun jti => cookie.jti.map fun newJti => (jti, newJti)
  | _, _ => none

/-- The session was revoked, or was rotated longer ago than the grace period. -/
def Reused (now : Nat) (s : AuthSession) : Prop :=
  s.revokedAt ≠ none ∨ ∃ r, s.rotatedAt = some r ∧ rotationGraceSeconds < now - r

def AllRevoked (p : Platform) (userId : Nat) : Prop :=
  ∀ s ∈ p.authSessions, s.userId = userId → s.revokedAt ≠ none

section

variable {S : Deployment} {p p' : Platform} {x y : Taken Platform PlatformRequest} {jti newJti : Nat}
  {tr old : List (Taken Platform PlatformRequest)}

/-! ## A successor is made -/

/-- What happens when a successor is made: the session was not rotated before, and is now. -/
structure Succession (S : Deployment) (x : Taken Platform PlatformRequest) (jti newJti : Nat) : Prop where
  new : newJti = x.before.drawn + 1
  fresh : ∃ s ∈ x.before.authSessions, s.jti = jti ∧ s.rotatedAt = none
  rotated : ∃ s ∈ x.after.authSessions, s.jti = jti ∧ s.rotatedAt = some x.label.env.now

theorem succession_of_at (hsteps : PlatformSteps S x.before x.label x.after)
    (h : successionAt S x = some (jti, newJti)) : Succession S x jti newJti := by
  unfold successionAt at h
  split at h
  next token accessToken cookie hcall hanswer =>
    obtain ⟨j, htoken, h⟩ := Option.bind_eq_some_iff.mp h
    obtain ⟨j', hcookie, h⟩ := Option.map_eq_some_iff.mp h
    cases h
    cases hbearer : refreshBearer x.before x.label.env.now (some token) with
    | error e =>
      rw [refused_of_bearer hcall hbearer] at hanswer
      cases hanswer
    | ok bearer =>
      obtain ⟨user, k⟩ := bearer
      obtain ⟨_, hsame, -, hk, -⟩ := refreshBearer_ok hbearer
      cases hsame
      have hjti : k = jti := by
        rw [htoken] at hk
        exact (Option.some.inj hk).symm
      subst hjti
      have hend := exchange_of_refresh hsteps hcall hbearer
      cases hend with
      | reuse _ hrefused _ _ =>
        rw [hanswer] at hrefused
        cases hrefused
      | inGrace _ _ _ _ _ _ _ hgranted _ _ =>
        rw [hanswer] at hgranted
        cases hgranted
      | rotated session hsession _ hfresh _ cookie' hgranted hnew hafter _ =>
        rw [hanswer] at hgranted
        cases hgranted
        obtain ⟨hmem, hkey⟩ := sessionOf_mem hsession
        constructor
        · rw [hnew] at hcookie
          exact (Option.some.inj hcookie).symm
        · exact ⟨session, hmem, hkey, hfresh⟩
        · rw [hafter]
          exact ⟨_, mem_rotatedTo hsession, hkey, rfl⟩
  next => cases h

/-- The row of a session that has its successor stays rotated. -/
theorem Succession.settled (h : Succession S x jti newJti) (hkeyed : WellKeyed x.after) :
    Settled (fun s => s.rotatedAt ≠ none) jti x.after := by
  obtain ⟨s, hs, rfl, hrotated⟩ := h.rotated
  apply hkeyed.settled hs
  rw [hrotated]
  exact Option.some_ne_none _

theorem rotated_stays (s s' : AuthSession) (hlater : RowLater s s') (h : s.rotatedAt ≠ none) :
    s'.rotatedAt ≠ none := by
  rw [hlater.rotated h]
  exact h

/-- A session that was rotated gets no successor. -/
theorem no_succession_of_rotated (hsteps : PlatformSteps S x.before x.label x.after)
    (hsettled : Settled (fun s => s.rotatedAt ≠ none) jti x.before) (newJti : Nat) :
    successionAt S x ≠ some (jti, newJti) := by
  intro hsuccession
  obtain ⟨s, hs, hjti, hfresh⟩ := (succession_of_at hsteps hsuccession).fresh
  exact hsettled.2 s hs hjti hfresh

theorem successors_nodup (h : PlatformRun S WellKeyed tr p) :
    ((tr.filterMap (successionAt S)).map Prod.fst).Nodup := by
  induction h with
  | nil _ => exact List.nodup_nil
  | @cons tr q e q' hrun hsteps ih =>
    cases hsuccession : successionAt S ⟨q, e, q'⟩ with
    | none =>
      rw [List.filterMap_cons_none hsuccession]
      exact ih
    | some pair =>
      obtain ⟨jti, newJti⟩ := pair
      rw [List.filterMap_cons_some hsuccession, List.map_cons, List.nodup_cons]
      refine ⟨?_, ih⟩
      intro hmem
      obtain ⟨⟨_, newJti'⟩, hpair, rfl⟩ := List.mem_map.mp hmem
      obtain ⟨y, hy, hyat⟩ := List.mem_filterMap.mp hpair
      obtain ⟨new, old, rfl⟩ := List.append_of_mem hy
      obtain ⟨hold, hysteps⟩ := hrun.cut
      have hkeyed : WellKeyed y.after :=
        (later_of_steps hysteps).keyed (wellKeyed_of_run hold)
      have hsettled := (succession_of_at hysteps hyat).settled hkeyed
      have hlater := later_of_run hrun.cut_after
      exact no_succession_of_rotated (x := ⟨q, e, q'⟩) hsteps (hsettled.later rotated_stays hlater) newJti
        hsuccession

/-! ## A rotated or revoked token comes again -/

theorem Reused.later (now : Nat) (s s' : AuthSession) (hlater : RowLater s s') (h : Reused now s) :
    Reused now s' := by
  obtain hrevoked | ⟨r, hrotated, hlong⟩ := h
  · exact Or.inl (hlater.revoked hrevoked)
  · refine Or.inr ⟨r, ?_, hlong⟩
    rw [hlater.rotated (by rw [hrotated]; exact Option.some_ne_none r)]
    exact hrotated

theorem allRevoked_of_eq {now userId : Nat}
    (h : p'.authSessions = (revokeAllForUser p now userId).authSessions) : AllRevoked p' userId := by
  intro s' hs' huser
  rw [h] at hs'
  obtain ⟨s, -, rfl⟩ := mem_revokeAll hs'
  unfold AuthSession.revokedFor at huser ⊢
  by_cases hlive : s.userId = userId ∧ s.revokedAt = none
  · rw [if_pos hlive]
    exact Option.some_ne_none now
  · rw [if_neg hlive] at huser ⊢
    intro hnone
    exact hlive ⟨huser, hnone⟩

theorem live_spec {s : AuthSession} {now userId : Nat} (h : s.isDead now userId = false) :
    (s.userId = userId ∧ s.revokedAt = none) ∧ now < s.expiresAt := by
  unfold AuthSession.isDead at h
  simpa using h

theorem exchange_of_reused {user : User} (h : Exchange S x user jti)
    (hsettled : Settled (Reused x.label.env.now) jti x.before) :
    (answerOf S x).isOk = false ∧ AllRevoked x.after user.id := by
  have hreused : ∀ session, sessionOf x.before jti = some session → Reused x.label.env.now session := by
    intro session hsession
    obtain ⟨hmem, hjti⟩ := sessionOf_mem hsession
    exact hsettled.2 session hmem hjti
  cases h with
  | reuse _ hanswer hafter _ =>
    rw [hanswer]
    exact ⟨rfl, allRevoked_of_eq hafter⟩
  | inGrace session hsession hlive r hrotated hgrace _ _ _ _ =>
    obtain hrevoked | ⟨r', hrotated', hlong⟩ := hreused session hsession
    · exact absurd (live_spec hlive).1.2 hrevoked
    · rw [hrotated] at hrotated'
      cases hrotated'
      omega
  | rotated session hsession hlive hfresh _ _ _ _ _ _ =>
    obtain hrevoked | ⟨r', hrotated', _⟩ := hreused session hsession
    · exact absurd (live_spec hlive).1.2 hrevoked
    · rw [hfresh] at hrotated'
      cases hrotated'

/-- Only the exchange of a session that was not rotated makes a session. -/
theorem exchange_of_rotated {user : User} (h : Exchange S x user jti)
    (hsettled : Settled (fun s => s.rotatedAt ≠ none) jti x.before) :
    ∀ s' ∈ x.after.authSessions, ∃ s ∈ x.before.authSessions, s.jti = s'.jti := by
  intro s' hs'
  cases h with
  | reuse _ _ hafter _ =>
    rw [hafter] at hs'
    obtain ⟨s, hs, rfl⟩ := mem_revokeAll hs'
    exact ⟨s, hs, (revokedFor_later _ _ s).jti_eq.symm⟩
  | inGrace _ _ _ _ _ _ _ _ hafter _ =>
    rw [hafter] at hs'
    exact ⟨s', hs', rfl⟩
  | rotated session hsession _ hfresh _ _ _ _ _ _ =>
    obtain ⟨hmem, hjti⟩ := sessionOf_mem hsession
    exact absurd hfresh (hsettled.2 session hmem hjti)

/-- What a row of an earlier state had, the row of the session still has. -/
theorem settled_of_earlier {P : AuthSession → Prop} {s : AuthSession}
    (hP : ∀ s s', RowLater s s' → P s → P s') (hrun : PlatformRun S WellKeyed old x.before)
    (hy : y ∈ x :: old) (hs : s ∈ y.before.authSessions) (h : P s) : Settled P s.jti x.before := by
  obtain rfl | hy := List.mem_cons.mp hy
  · exact (wellKeyed_of_run hrun).settled hs h
  · obtain ⟨later, earlier, rfl⟩ := List.append_of_mem hy
    exact ((wellKeyed_of_run hrun.cut.1).settled hs h).later hP (later_of_cut hrun)

end

/-- In every run no session has two successors. Where a cookie is presented whose token, account and version
pass, and its session was rotated in some state up to then, no session is made; where that was longer ago
than the grace period, or the session was revoked in some state up to then, the request is refused and all
sessions of the account are revoked. -/
theorem refresh_lineage (S : Deployment) {tr : List (Taken Platform PlatformRequest)} {p : Platform}
    (h : PlatformRun S WellKeyed tr p) :
    ((tr.filterMap (successionAt S)).map Prod.fst).Nodup ∧
      ∀ new x old, tr = new ++ x :: old →
        ∀ cookie user jti, x.label.call = .refresh cookie →
          refreshBearer x.before x.label.env.now cookie = .ok (user, jti) →
          ∀ y ∈ x :: old, ∀ s ∈ y.before.authSessions, s.jti = jti →
            (Reused x.label.env.now s → (answerOf S x).isOk = false ∧ AllRevoked x.after user.id) ∧
              (s.rotatedAt ≠ none → (∀ newJti, successionAt S x ≠ some (jti, newJti)) ∧
                ∀ s' ∈ x.after.authSessions, ∃ t ∈ x.before.authSessions, t.jti = s'.jti) := by
  refine ⟨successors_nodup h, ?_⟩
  rintro new x old rfl cookie user jti hcall hbearer y hy s hs rfl
  obtain ⟨hold, hsteps⟩ := h.cut
  have hend := exchange_of_refresh hsteps hcall hbearer
  constructor
  · intro hreused
    exact exchange_of_reused hend (settled_of_earlier (Reused.later _) hold hy hs hreused)
  · intro hrotated
    have hsettled := settled_of_earlier rotated_stays hold hy hs hrotated
    exact ⟨no_succession_of_rotated hsteps hsettled, exchange_of_rotated hend hsettled⟩

/-! ## A cookie comes too late -/

theorem refreshBearer_of_keys {p : Platform} {now userId jti : Nat} {cookie : Option Token}
    (h : (refreshBearer p now cookie).toOption.map (fun b => (b.1.id, b.2)) = some (userId, jti)) :
    ∃ user, user.id = userId ∧ refreshBearer p now cookie = .ok (user, jti) := by
  cases hbearer : refreshBearer p now cookie with
  | error e =>
    rw [hbearer] at h
    cases h
  | ok bearer =>
    rw [hbearer] at h
    cases h
    exact ⟨bearer.1, rfl, rfl⟩

theorem officePlatform_keyed : WellKeyed officePlatform where
  drawn := fun s hs => absurd hs (Table.not_mem_empty s)
  unique := fun s hs => absurd hs (Table.not_mem_empty s)

/-- The account 4 logs in, exchanges its cookie, and presents it again a minute and a second later. The
newest first. -/
def lateReplay : List PlatformRequest :=
  [requestAt 63 (.refresh (cookieOf 4 .hr 1 1)), requestAt 2 (.refresh (cookieOf 4 .hr 1 1)),
    requestAt 1 (.login "hr" "secret")]

theorem lateReplay_run : PlatformRun ordinarySettings WellKeyed
    (replay (served ordinarySettings) officePlatform lateReplay)
    (endState (served ordinarySettings) officePlatform lateReplay) :=
  platformRun_replay officePlatform_keyed (by decide)

theorem lateReplay_revokes_all :
    ∃ x ∈ replay (served ordinarySettings) officePlatform lateReplay, x.label.env.now = 63 ∧
      (answerOf ordinarySettings x).isOk = false ∧ AllRevoked x.after 4 := by
  obtain ⟨user, hid, hbearer⟩ : ∃ user, user.id = 4 ∧
      refreshBearer (endState (served ordinarySettings) officePlatform lateReplay.tail) 63
        (some (cookieOf 4 .hr 1 1)) = .ok (user, 1) :=
    refreshBearer_of_keys (by decide)
  obtain ⟨s, hs, hjti, hrotated⟩ : ∃ s ∈ (endState (served ordinarySettings) officePlatform
      lateReplay.tail).authSessions.rows, s.jti = 1 ∧ s.rotatedAt = some 2 := by decide
  have hreused : Reused 63 s := Or.inr ⟨2, hrotated, by decide⟩
  have hrefused := ((refresh_lineage ordinarySettings lateReplay_run).2 [] _ _ rfl _ user 1 rfl hbearer
    _ List.mem_cons_self s hs hjti).1 hreused
  rw [hid] at hrefused
  exact ⟨_, List.mem_cons_self, rfl, hrefused⟩

/-- The password is changed, and the cookie from before is presented. -/
def replayAfterChange : List PlatformRequest :=
  [requestAt 3 (.refresh (cookieOf 4 .hr 1 1)),
    requestAt 2 (.changePassword (bearerOf 4 .hr 1) "secret" "another"),
    requestAt 1 (.login "hr" "secret")]

/-- A token of a revoked session that is outdated by its version is refused, and revokes nothing. -/
theorem revoked_token_revokes_nothing :
    ∃ tr p, PlatformRun ordinarySettings WellKeyed tr p ∧
      ∃ x ∈ tr, ∃ token, x.label.call = .refresh (some token) ∧
        (∃ y ∈ tr, token ∈ issuedAt ordinarySettings y) ∧
        (∃ s ∈ x.before.authSessions.rows, token.jti = some s.jti ∧ s.revokedAt ≠ none) ∧
        ∃ s ∈ x.after.authSessions.rows, s.userId = token.sub ∧ s.revokedAt = none := by
  have hrun : PlatformRun ordinarySettings WellKeyed
      (replay (served ordinarySettings) officePlatform replayAfterChange)
      (endState (served ordinarySettings) officePlatform replayAfterChange) :=
    platformRun_replay officePlatform_keyed (by decide)
  refine ⟨_, _, hrun, _, List.mem_cons_self, cookieOf 4 .hr 1 1, rfl, ?_, ?_, ?_⟩
  · refine ⟨_, List.mem_cons_of_mem _ (List.mem_cons_of_mem _ List.mem_cons_self), ?_⟩
    decide
  · decide
  · decide

end NexaHR
