import NexaHR.Properties.Lineage

/-! # Logout

Logout revokes the newest session of a lineage, and so does the owner who closes it from his list. A token
whose session was exchanged within the last minute is not looked at: it still gets an access token.

* `Lineage`: a session and those it came from.
* `EndsSession`, `LogsOut`: the steps that revoke a session on its owner's request.
* `logout_is_final`: where no session of the lineage is in its grace period, no token of it is exchanged
  again.
* `predecessor_outlives_logout`: where one is, it is.
-/

namespace NexaHR

open Foundations

set_option autoImplicit false

/-- The session `n`, and those that it came from in the run, by exchange after exchange. -/
inductive Lineage (S : Deployment) (tr : List (Taken Platform PlatformRequest)) (n : Nat) : Nat → Prop
  | newest : Lineage S tr n n
  | older {jti newJti : Nat} {x : Taken Platform PlatformRequest} (hx : x ∈ tr)
      (hsuccession : successionAt S x = some (jti, newJti)) (hnew : Lineage S tr n newJti) :
      Lineage S tr n jti

/-- The session is logged out by its cookie, or is closed by its owner. -/
def EndsSession (S : Deployment) (x : Taken Platform PlatformRequest) (n : Nat) : Prop :=
  (∃ cookie, x.label.call = .logout cookie ∧ cookieJti x.label.env.now cookie = some n) ∨
    ∃ bearer session, x.label.call = .revokeMySession bearer session.id ∧ (answerOf S x).isOk = true ∧
      session ∈ x.before.authSessions ∧ session.jti = n

/-- The step ends the newest session of a lineage. -/
structure LogsOut (S : Deployment) (x : Taken Platform PlatformRequest)
    (old : List (Taken Platform PlatformRequest)) (n : Nat) : Prop where
  ends : EndsSession S x n
  drawn : n ≤ x.before.drawn
  newest : n ∉ (old.filterMap (successionAt S)).map Prod.fst

/-- The session is alive, and was rotated within the grace period. -/
def InGrace (p : Platform) (now jti : Nat) : Prop :=
  ∃ s ∈ p.authSessions, s.jti = jti ∧ s.revokedAt = none ∧ now < s.expiresAt ∧
    ∃ r, s.rotatedAt = some r ∧ now - r ≤ rotationGraceSeconds

/-- The session is of no use any more. -/
def Spent (now : Nat) (s : AuthSession) : Prop := Reused now s ∨ s.expiresAt ≤ now

section

variable {S : Deployment} {p p' : Platform} {x y : Taken Platform PlatformRequest} {n jti : Nat}
  {tr new old : List (Taken Platform PlatformRequest)}

/-! ## Spent sessions -/

theorem Spent.later (now : Nat) (s s' : AuthSession) (hlater : RowLater s s') (h : Spent now s) :
    Spent now s' := by
  obtain hreused | hexpired := h
  · exact Or.inl (Reused.later now s s' hlater hreused)
  · right
    rw [hlater.expiresAt_eq]
    exact hexpired

theorem Spent.mono {now now' : Nat} (hle : now ≤ now') (s : AuthSession) (h : Spent now s) :
    Spent now' s := by
  obtain (hrevoked | ⟨r, hrotated, hlong⟩) | hexpired := h
  · exact Or.inl (Or.inl hrevoked)
  · exact Or.inl (Or.inr ⟨r, hrotated, by omega⟩)
  · exact Or.inr (Nat.le_trans hexpired hle)

/-- A spent token is refused. -/
theorem refused_of_spent {cookie : Option Token} {token : Token}
    (hsteps : PlatformSteps S x.before x.label x.after) (hcall : x.label.call = .refresh cookie)
    (htoken : cookie = some token) (hjti : token.jti = some jti)
    (hspent : Settled (Spent x.label.env.now) jti x.before) : (answerOf S x).isOk = false := by
  cases hbearer : refreshBearer x.before x.label.env.now cookie with
  | error e =>
    rw [refused_of_bearer hcall hbearer]
    rfl
  | ok bearer =>
    obtain ⟨user, k⟩ := bearer
    obtain ⟨_, hsame, -, hk, -⟩ := refreshBearer_ok hbearer
    rw [htoken] at hsame
    cases hsame
    rw [hjti] at hk
    cases hk
    have hrow : ∀ session, sessionOf x.before jti = some session → Spent x.label.env.now session := by
      intro session hsession
      obtain ⟨hmem, hkey⟩ := sessionOf_mem hsession
      exact hspent.2 session hmem hkey
    cases exchange_of_refresh hsteps hcall hbearer with
    | reuse _ hanswer _ _ =>
      rw [hanswer]
      rfl
    | inGrace session hsession hlive r hrotated hgrace _ _ _ _ =>
      obtain ⟨⟨-, hopen⟩, hexpires⟩ := live_spec hlive
      obtain (hrevoked | ⟨r', hrotated', hlong⟩) | hexpired := hrow session hsession
      · exact absurd hopen hrevoked
      · rw [hrotated] at hrotated'
        cases hrotated'
        omega
      · omega
    | rotated session hsession hlive hfresh _ _ _ _ _ _ =>
      obtain ⟨⟨-, hopen⟩, hexpires⟩ := live_spec hlive
      obtain (hrevoked | ⟨r', hrotated', -⟩) | hexpired := hrow session hsession
      · exact absurd hopen hrevoked
      · rw [hfresh] at hrotated'
        cases hrotated'
      · omega

/-! ## The end of a session -/

theorem sessionOf_of_mem {s : AuthSession} (hp : WellKeyed p) (hs : s ∈ p.authSessions) :
    sessionOf p s.jti = some s := by
  cases hfound : sessionOf p s.jti with
  | none =>
    have hmiss := List.find?_eq_none.mp hfound s hs
    simp at hmiss
  | some t =>
    obtain ⟨ht, hjti⟩ := sessionOf_mem hfound
    rw [hp.unique t ht s hs hjti]

/-- The row is put back revoked. -/
theorem settled_put_revoked {s : AuthSession} {now : Nat} (hp : WellKeyed p) (hs : s ∈ p.authSessions) :
    Settled (fun t => t.revokedAt ≠ none) s.jti
      { p with authSessions := p.authSessions.put (s.revoked now) } := by
  refine ⟨hp.drawn s hs, ?_⟩
  intro t ht hjti
  obtain ⟨hold, hother⟩ | rfl := Table.mem_put ht
  · have hsame : t = s := hp.unique t hold s hs hjti
    rw [hsame] at hother
    exact absurd rfl hother
  · exact Option.some_ne_none now

theorem revokeSession_settled {now : Nat} (hp : WellKeyed p) (hn : n ≤ p.drawn) :
    Settled (fun t => t.revokedAt ≠ none) n (revokeSession p now n) := by
  unfold revokeSession
  cases hfound : sessionOf p n with
  | none =>
    refine ⟨hn, ?_⟩
    rintro s hs rfl
    rw [sessionOf_of_mem hp hs] at hfound
    cases hfound
  | some session =>
    obtain ⟨hmem, rfl⟩ := sessionOf_mem hfound
    dsimp only
    by_cases hopen : session.revokedAt = none
    · rw [if_pos hopen]
      exact settled_put_revoked hp hmem
    · rw [if_neg hopen]
      exact hp.settled hmem hopen

theorem settled_of_ends (hp : WellKeyed x.before) (hsteps : PlatformSteps S x.before x.label x.after)
    (hends : EndsSession S x n) (hn : n ≤ x.before.drawn) :
    Settled (fun t => t.revokedAt ≠ none) n x.after := by
  rw [hsteps.2]
  unfold serve
  obtain ⟨cookie, hcall, hjti⟩ | ⟨bearer, session, hcall, hok, hmem, rfl⟩ := hends
  · rw [hcall]
    dsimp only [PlatformCall.run]
    unfold logout
    rw [hjti]
    exact revokeSession_settled hp hn
  · unfold answerOf serve at hok
    rw [hcall] at hok ⊢
    dsimp only [PlatformCall.run] at hok ⊢
    unfold revokeMySession at hok ⊢
    cases hown : ownSession x.before x.label.env.now bearer session.id with
    | error e =>
      rw [hown] at hok
      cases hok
    | ok found =>
      have hsame : found = session := by
        unfold ownSession at hown
        simp only [bind_eq_ok, pure_eq_ok, require_eq_ok] at hown
        obtain ⟨_, -, _, hget, -, -, rfl⟩ := hown
        exact Table.eq_of_id_eq (Table.mem_of_get? hget) hmem (Table.id_of_get? hget)
      rw [hsame]
      dsimp only
      by_cases hopen : session.revokedAt = none
      · rw [if_pos hopen]
        exact settled_put_revoked hp hmem
      · rw [if_neg hopen]
        have hsettled : Settled (fun t => t.revokedAt ≠ none) session.jti x.before :=
          hp.settled hmem hopen
        exact hsettled

/-! ## The lineage after the end -/

theorem spent_of_lineage (hrun : PlatformRun S WellKeyed old x.before)
    (hsteps : PlatformSteps S x.before x.label x.after) (hout : LogsOut S x old n)
    (hgrace : ∀ jti, Lineage S old n jti → jti ≠ n → ¬ InGrace x.before x.label.env.now jti)
    (hlineage : Lineage S old n jti) : Settled (Spent x.label.env.now) jti x.after := by
  by_cases hnewest : jti = n
  · subst hnewest
    have hrevoked := settled_of_ends (wellKeyed_of_run hrun) hsteps hout.ends hout.drawn
    exact hrevoked.mono fun s hs => Or.inl (Or.inl hs)
  · have houtside := hgrace jti hlineage hnewest
    cases hlineage with
    | newest => exact absurd rfl hnewest
    | @older _ newJti y hy hsuccession _ =>
      obtain ⟨later, earlier, rfl⟩ := List.append_of_mem hy
      obtain ⟨hearlier, hysteps⟩ := hrun.cut
      have hkeyed : WellKeyed y.after := (later_of_steps hysteps).keyed (wellKeyed_of_run hearlier)
      have hrotated := ((succession_of_at hysteps hsuccession).settled hkeyed).later rotated_stays
        (later_of_run hrun.cut_after)
      have hspent : Settled (Spent x.label.env.now) jti x.before := by
        refine ⟨hrotated.1, ?_⟩
        intro s hs hjti
        obtain ⟨r, hr⟩ := Option.ne_none_iff_exists'.mp (hrotated.2 s hs hjti)
        by_contra hlive
        simp only [Spent, Reused, not_or, not_exists, not_and, Nat.not_le, Nat.not_lt, ne_eq,
          not_not] at hlive
        obtain ⟨⟨hopen, hrecent⟩, hexpires⟩ := hlive
        exact houtside ⟨s, hs, hjti, hopen, hexpires, r, hr, hrecent r hr⟩
      exact hspent.later (Spent.later _) (later_of_steps hsteps)

theorem clock_le_of_run (h : PlatformRun S (· = p) tr p') : p.clock ≤ p'.clock := by
  refine h.relates (R := fun q q' => q.clock ≤ q'.clock) (fun q => Nat.le_refl q.clock)
    (fun _ _ _ hab hbc => Nat.le_trans hab hbc) ?_
  intro q req q' hsteps
  rw [hsteps.2]
  exact hsteps.1

end

/-- In every run where no session of a lineage but the newest is in its grace period when the newest is
logged out or closed, no later presentation of a token of the lineage is answered. -/
theorem logout_is_final (S : Deployment) {tr : List (Taken Platform PlatformRequest)} {p : Platform}
    (h : PlatformRun S WellKeyed tr p)
    (hgrace : ∀ new x old, tr = new ++ x :: old → ∀ n, LogsOut S x old n →
      ∀ jti, Lineage S old n jti → jti ≠ n → ¬ InGrace x.before x.label.env.now jti) :
    ∀ new x old, tr = new ++ x :: old → ∀ n, LogsOut S x old n →
      ∀ y ∈ new, ∀ token, y.label.call = .refresh (some token) →
        ∀ jti, token.jti = some jti → Lineage S old n jti → (answerOf S y).isOk = false := by
  rintro new x old rfl n hout y hy token hcall jti hjti hlineage
  obtain ⟨hold, hsteps⟩ := h.cut
  have hspent := spent_of_lineage hold hsteps hout (hgrace new x old rfl n hout) hlineage
  obtain ⟨later, earlier, rfl⟩ := List.append_of_mem hy
  have hrun : PlatformRun S (· = x.after) (later ++ y :: earlier) p := h.cut_after
  obtain ⟨hbetween, hysteps⟩ := hrun.cut
  have htime : x.label.env.now ≤ y.label.env.now := by
    have hclock : x.after.clock = x.label.env.now := by
      rw [hsteps.2]
      rfl
    have hle := clock_le_of_run hbetween
    have hnow := hysteps.1
    omega
  have hstill : Settled (Spent y.label.env.now) jti y.before :=
    (hspent.later (Spent.later _) (later_of_run hbetween)).mono (Spent.mono htime)
  exact refused_of_spent hysteps hcall rfl hjti hstill

/-! ## A minute before and after -/

/-- The account 4 logs in and exchanges its cookie; it logs out at the given time, and the cookie from its
login comes again a second later. The newest first. -/
def logoutAt (now : Nat) : List PlatformRequest :=
  [requestAt (now + 1) (.refresh (cookieOf 4 .hr 1 1)), requestAt now (.logout (cookieOf 4 .hr 2 2)),
    requestAt 2 (.refresh (cookieOf 4 .hr 1 1)), requestAt 1 (.login "hr" "secret")]

theorem logoutAt_run (now : Nat)
    (horder : inOrder ordinarySettings officePlatform (logoutAt now) = true) :
    PlatformRun ordinarySettings WellKeyed (replay (served ordinarySettings) officePlatform (logoutAt now))
      (endState (served ordinarySettings) officePlatform (logoutAt now)) :=
  platformRun_replay officePlatform_keyed horder

/-- The cookie of the login still gets an access token after the logout, and the token is accepted. -/
theorem predecessor_outlives_logout :
    ∃ tr p, PlatformRun ordinarySettings WellKeyed tr p ∧
      ∃ new x old, tr = new ++ x :: old ∧ LogsOut ordinarySettings x old 2 ∧
        Lineage ordinarySettings old 2 1 ∧
        ∃ y ∈ new, ∃ token, y.label.call = .refresh (some token) ∧ token.jti = some 1 ∧
          ∃ accessToken ∈ issuedAt ordinarySettings y,
            (signedInUser p 5 (some accessToken) false).isOk = true := by
  refine ⟨_, _, logoutAt_run 3 (by decide), [_], _, _, rfl, ?_, ?_, _, List.mem_cons_self,
    cookieOf 4 .hr 1 1, rfl, rfl, ?_⟩
  · exact ⟨Or.inl ⟨_, rfl, by decide⟩, by decide, by decide⟩
  · exact Lineage.older List.mem_cons_self (by decide) Lineage.newest
  · refine ⟨_, List.mem_cons_self, ?_⟩
    decide

/-- Where a session is ended, none was rotated within the grace period. -/
def endsQuietly (x : Taken Platform PlatformRequest) : Bool :=
  match x.label.call with
  | .logout _ | .revokeMySession _ _ =>
    x.before.authSessions.rows.all fun s =>
      s.rotatedAt.all fun r => rotationGraceSeconds < x.label.env.now - r
  | _ => true

theorem not_inGrace_of_quiet {S : Deployment} {x : Taken Platform PlatformRequest} {n : Nat}
    (hends : EndsSession S x n) (h : endsQuietly x = true) (jti : Nat) :
    ¬ InGrace x.before x.label.env.now jti := by
  rintro ⟨s, hs, -, -, -, r, hrotated, hrecent⟩
  have hall : (x.before.authSessions.rows.all fun s =>
      s.rotatedAt.all fun r => rotationGraceSeconds < x.label.env.now - r) = true := by
    unfold endsQuietly at h
    obtain ⟨cookie, hcall, -⟩ | ⟨bearer, session, hcall, -⟩ := hends
    · rw [hcall] at h
      exact h
    · rw [hcall] at h
      exact h
  have hlong := List.all_eq_true.mp hall s hs
  rw [hrotated] at hlong
  simp only [Option.all_some, decide_eq_true_eq] at hlong
  omega

/-- After a minute and more, the cookie of the login is refused once its successor is logged out. -/
theorem predecessor_refused_after_logout :
    ∃ y ∈ replay (served ordinarySettings) officePlatform (logoutAt 100),
      y.label.call = .refresh (some (cookieOf 4 .hr 1 1)) ∧ y.label.env.now = 101 ∧
        (answerOf ordinarySettings y).isOk = false := by
  have hrun := logoutAt_run 100 (by decide)
  have hquiet : ((replay (served ordinarySettings) officePlatform (logoutAt 100)).all endsQuietly) = true := by
    decide
  refine ⟨_, List.mem_cons_self, rfl, rfl, ?_⟩
  refine logout_is_final ordinarySettings hrun ?_ [_] _ _ rfl 2 ?_ _ List.mem_cons_self
    (cookieOf 4 .hr 1 1) rfl 1 rfl ?_
  · intro new x old htr n hout jti _ _
    apply not_inGrace_of_quiet hout.ends
    apply List.all_eq_true.mp hquiet
    rw [htr]
    exact List.mem_append_right new List.mem_cons_self
  · exact ⟨Or.inl ⟨_, rfl, by decide⟩, by decide, by decide⟩
  · exact Lineage.older List.mem_cons_self (by decide) Lineage.newest

end NexaHR
