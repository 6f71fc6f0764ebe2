import NexaHR.System.GuardSteps
import NexaHR.System.PlatformEffects
import NexaHR.System.PlatformStep

/-! # Tokens from before a deactivation or a reset

A token is accepted while its account is active and its version is the account's. A reset of the password and
the departure of the person raise the version. The update that switches an account off does not, so a token
from before is accepted again once the account is switched on.

* `accepts`: the account and the version of a token pass.
* `endsTokens`, `endedSinceOff`: the version was raised since the account was switched off.
* `old_tokens_stay_refused`: the tokens from before are refused, if every account that is switched on again
  has had its tokens ended.
-/

namespace NexaHR

open Foundations

set_option autoImplicit false

def activeIn (p : Platform) (userId : Nat) : Bool := (p.db.users.get? userId).any User.isActive

/-- The token passes at an endpoint, or is a refresh cookie that may be exchanged as far as its account is
concerned. -/
def accepts (p : Platform) (now : Nat) (token : Token) : Bool :=
  (signedInUser p now (some token) true).isOk || (refreshBearer p now (some token)).isOk

/-! ## Events of an account -/

def switchedOff (userId : Nat) (x : Taken Platform PlatformRequest) : Bool :=
  activeIn x.before userId && !activeIn x.after userId

def switchedOn (userId : Nat) (x : Taken Platform PlatformRequest) : Bool :=
  !activeIn x.before userId && activeIn x.after userId

/-- An administrator sets another password. -/
def resetsPassword (S : Deployment) (userId : Nat) (x : Taken Platform PlatformRequest) : Bool :=
  match x.label.call with
  | .signedIn _ (.updateUser k _ (some _)) => k = userId && (answerOf S x).isOk
  | _ => false

/-- The person of the account leaves, and the account with him. -/
def closesAccount (S : Deployment) (userId : Nat) (x : Taken Platform PlatformRequest) : Bool :=
  match x.label.call with
  | .signedIn _ (.updatePersonnel personnelId payload) =>
    (answerOf S x).isOk &&
      (x.before.closingAccount personnelId payload).any fun account => account.id = userId
  | _ => false

def endsTokens (S : Deployment) (userId : Nat) (x : Taken Platform PlatformRequest) : Bool :=
  resetsPassword S userId x || closesAccount S userId x

/-- The account was not switched off, or its tokens were ended then or since. -/
def endedSinceOff (S : Deployment) (userId : Nat) : List (Taken Platform PlatformRequest) → Bool
  | [] => true
  | x :: tr => endsTokens S userId x || (!switchedOff userId x && endedSinceOff S userId tr)

section

variable {S : Deployment} {p p' : Platform} {req : PlatformRequest} {k : Nat} {token : Token}
  {x : Taken Platform PlatformRequest} {tr new old : List (Taken Platform PlatformRequest)}

/-! ## Versions rise -/

theorem AccountEffect.seq_le {answer : Answer} (h : AccountEffect p req answer) :
    p.db.users.seq ≤ answer.2.db.users.seq := by
  cases h with
  | kept husers _ _ => rw [husers]
  | passwordChanged _ husers _ _ => rw [husers]
  | grown hgrows _ _ => exact hgrows.seq_le
  | createdHr _ _ _ _ _ hgrows _ _ _ _ _ => exact hgrows.seq_le
  | updated _ _ _ _ _ _ _ _ _ husers _ _ => rw [husers, Table.seq_put]
  | deleted _ _ _ _ _ husers _ _ => rw [husers, Table.seq_filter]
  | departed _ _ _ _ _ _ _ husers _ _ => rw [husers, Table.seq_put]
  | granted _ _ _ _ _ _ _ husers _ _ => rw [husers]

theorem AccountEffect.version_le {answer : Answer} (h : AccountEffect p req answer)
    (hk : k ≤ p.db.users.seq) : p.tokenVersion k ≤ answer.2.tokenVersion k := by
  have hraised : ∀ (c : Prop) [Decidable c],
      p.tokenVersion k ≤ if c then p.tokenVersion k + 1 else p.tokenVersion k := by
    intro c _
    split <;> omega
  cases h with
  | kept _ _ hversions => exact Nat.le_of_eq (hversions k).symm
  | passwordChanged _ _ _ hversions =>
    rw [hversions]
    exact hraised _
  | grown _ _ hversions => exact Nat.le_of_eq (hversions k hk).symm
  | createdHr _ _ _ _ _ _ _ _ _ _ hversions => exact Nat.le_of_eq (hversions k hk).symm
  | updated _ _ _ _ _ _ _ _ _ _ _ hversions =>
    rw [hversions]
    exact hraised _
  | deleted _ _ _ _ _ _ _ hversions => exact Nat.le_of_eq (hversions k).symm
  | departed _ _ _ _ _ _ _ _ _ hversions =>
    rw [hversions]
    exact hraised _
  | granted _ _ _ _ _ _ _ _ _ hversions => exact Nat.le_of_eq (hversions k).symm

/-- The account exists or existed, and its version is at least the given one. -/
def AtLeast (k version : Nat) (p : Platform) : Prop :=
  k ≤ p.db.users.seq ∧ version ≤ p.tokenVersion k

theorem AtLeast.step {version : Nat} (h : AtLeast k version p) (hsteps : PlatformSteps S p req p') :
    AtLeast k version p' := by
  have heffect := accountEffect_of_serve S p req
  rw [hsteps.2]
  exact ⟨Nat.le_trans h.1 heffect.seq_le, Nat.le_trans h.2 (heffect.version_le h.1)⟩

theorem AtLeast.run {version : Nat} {q : Platform} (h : AtLeast k version q)
    (hrun : PlatformRun S (· = q) tr p) : AtLeast k version p := by
  refine hrun.invariant ?_ fun _ _ _ hp hsteps => hp.step hsteps
  intro q' hq'
  rw [hq']
  exact h

/-! ## Where versions are raised -/

theorem answerOf_signedIn {bearer : Option Token} {call : AccountCall}
    (hcall : req.call = .signedIn bearer call) (hok : (serve S p req).1.isOk = true) :
    ∃ caller, signedInUser p req.env.now bearer false = .ok caller ∧
      serve S p req = ((call.run S p req.env caller).1,
        { (call.run S p req.env caller).2 with clock := req.env.now }) := by
  unfold serve at hok ⊢
  rw [hcall] at hok ⊢
  dsimp only [PlatformCall.run] at hok ⊢
  cases hsigned : signedInUser p req.env.now bearer false with
  | error e =>
    rw [hsigned] at hok
    cases hok
  | ok caller => exact ⟨caller, rfl, rfl⟩

theorem updateUser_raises {env : Env} {caller : CurrentUser} {payload : UserUpdate} {password : String}
    (hok : (p.updateUser S env caller k payload (some password)).1.isOk = true) :
    (p.updateUser S env caller k payload (some password)).2.tokenVersion k = p.tokenVersion k + 1 := by
  unfold Platform.updateUser at hok ⊢
  cases hdb : updateUser p.db (callerEnv p env caller) caller k payload with
  | error e =>
    rw [hdb] at hok
    cases hok
  | ok db =>
    dsimp only [withDirectory]
    rw [endTokens_tokenVersion, if_pos rfl]
    split
    · unfold Platform.tokenVersion
      rw [(applyDefault_users { p with db := db } k).2]
    · rfl

theorem updatePersonnel_raises {env : Env} {caller : CurrentUser} {personnelId : Nat}
    {payload : PersonnelUpdate} {account : User}
    (hok : (p.updatePersonnel env caller personnelId payload).1.isOk = true)
    (hclosing : p.closingAccount personnelId payload = some account) :
    (p.updatePersonnel env caller personnelId payload).2.tokenVersion account.id =
      p.tokenVersion account.id + 1 := by
  unfold Platform.updatePersonnel at hok ⊢
  cases hdb : updatePersonnel p.db (callerEnv p env caller) caller personnelId payload with
  | error e =>
    rw [hdb] at hok
    cases hok
  | ok db =>
    dsimp only [withDirectory]
    rw [hclosing]
    dsimp only
    rw [endTokens_tokenVersion, if_pos rfl]
    rfl

/-- Ending an account's tokens raises its version. -/
theorem version_of_endsTokens (hsteps : PlatformSteps S x.before x.label x.after)
    (hends : endsTokens S k x = true) : x.after.tokenVersion k = x.before.tokenVersion k + 1 := by
  rw [hsteps.2]
  unfold endsTokens at hends
  rw [Bool.or_eq_true] at hends
  obtain hresets | hcloses := hends
  · unfold resetsPassword at hresets
    split at hresets
    next bearer userId payload password hcall =>
      simp only [Bool.and_eq_true, decide_eq_true_iff] at hresets
      obtain ⟨rfl, hok⟩ := hresets
      obtain ⟨caller, -, hserve⟩ := answerOf_signedIn hcall hok
      unfold answerOf at hok
      rw [hserve] at hok ⊢
      exact updateUser_raises hok
    next => cases hresets
  · unfold closesAccount at hcloses
    split at hcloses
    next bearer personnelId payload hcall =>
      rw [Bool.and_eq_true] at hcloses
      obtain ⟨hok, hany⟩ := hcloses
      obtain ⟨account, hclosing, hid⟩ := exists_of_any hany
      rw [decide_eq_true_iff] at hid
      obtain ⟨caller, -, hserve⟩ := answerOf_signedIn hcall hok
      unfold answerOf at hok
      rw [hserve] at hok ⊢
      rw [← hid]
      exact updatePersonnel_raises hok hclosing
    next => cases hcloses

/-! ## The tokens that are handed out -/

def tokensOf (answer : Answer) : List Token :=
  match answer.1 with
  | .ok reply => reply.tokens
  | .error _ => []

theorem withDirectory_tokens (p : Platform) (result : Except HTTPException Database)
    (around : Platform → Platform) : tokensOf (withDirectory p result around) = [] := by
  cases result <;> rfl

/-- The endpoints behind the bearer token hand out none. -/
theorem AccountCall.run_tokens (S : Deployment) (p : Platform) (env : Env) (caller : CurrentUser)
    (call : AccountCall) : tokensOf (call.run S p env caller) = [] := by
  cases call with
  | unlockUser userId =>
    dsimp only [AccountCall.run]
    unfold Platform.unlockUser
    split <;> rfl
  | setCapabilities userId desired =>
    dsimp only [AccountCall.run]
    unfold NexaHR.setCapabilities
    split <;> rfl
  | createUser | updateUser | deleteUser | createPersonnel | importPersonnel | updatePersonnel | elsewhere =>
    exact withDirectory_tokens _ _ _

/-- Every token that an endpoint hands out has the version that its account then has. -/
def IssuesCurrent (answer : Answer) : Prop :=
  ∀ token ∈ tokensOf answer,
    token.sub ≤ answer.2.db.users.seq ∧ token.tv = answer.2.tokenVersion token.sub

theorem IssuesCurrent.of_nil {answer : Answer} (h : tokensOf answer = []) : IssuesCurrent answer := by
  intro token htoken
  rw [h] at htoken
  cases htoken

theorem issueLoginResponse_current (v : Visit) {user : User} (hid : user.id ≤ p.db.users.seq) :
    IssuesCurrent (issueLoginResponse S p v user) := by
  intro token htoken
  have hcases : token = createAccessToken S v.env.now user (p.tokenVersion user.id) ∨
      token = createRefreshToken S v.env.now user (p.tokenVersion user.id) (p.drawn + 1) := by
    simpa [tokensOf, issueLoginResponse, Reply.tokens, createSession] using htoken
  obtain rfl | rfl := hcases <;> exact ⟨hid, rfl⟩

theorem login_current (v : Visit) (username password : String) :
    IssuesCurrent (login S p v username password) := by
  have hend := loginEnd S p v username password
  generalize login S p v username password = answer at hend
  cases hend with
  | locked _ => exact IssuesCurrent.of_nil rfl
  | failed _ _ _ _ => exact IssuesCurrent.of_nil rfl
  | inactive => exact IssuesCurrent.of_nil rfl
  | succeeded _ user huser _ =>
    refine issueLoginResponse_current v ?_
    exact p.db.users.le_seq user (List.mem_of_find?_eq_some huser)

theorem refresh_current (v : Visit) (cookie : Option Token) : IssuesCurrent (refresh S p v cookie) := by
  unfold refresh
  split
  · exact IssuesCurrent.of_nil rfl
  next user jti hbearer =>
    obtain ⟨token, -, -, -, hget, -, -, -⟩ := refreshBearer_ok hbearer
    have hsub : user.id = token.sub := Table.id_of_get? hget
    have hid : user.id ≤ p.db.users.seq := by
      rw [hsub]
      exact Table.le_seq_of_get? hget
    obtain ⟨hdb, hcredentials, -⟩ := rotateSession_rest S p v.env.now user.id jti v.userAgent v.ip
    generalize rotateSession S p v.env.now user.id jti v.userAgent v.ip = rotation at hdb hcredentials
    obtain ⟨outcome, p'⟩ := rotation
    have hcurrent : user.id ≤ p'.db.users.seq ∧ p.tokenVersion user.id = p'.tokenVersion user.id := by
      dsimp only at hdb hcredentials
      unfold Platform.tokenVersion
      rw [hdb, hcredentials]
      exact ⟨hid, rfl⟩
    cases outcome with
    | refreshReuseError => exact IssuesCurrent.of_nil rfl
    | inGrace =>
      intro token htoken
      have htoken' : token = createAccessToken S v.env.now user (p.tokenVersion user.id) := by
        simpa [tokensOf, Reply.tokens] using htoken
      rw [htoken']
      exact hcurrent
    | rotated newJti =>
      intro token htoken
      have hcases : token = createAccessToken S v.env.now user (p.tokenVersion user.id) ∨
          token = createRefreshToken S v.env.now user (p.tokenVersion user.id) newJti := by
        simpa [tokensOf, Reply.tokens] using htoken
      obtain rfl | rfl := hcases <;> exact hcurrent

theorem changePassword_current (v : Visit) (bearer : Option Token) (currentPassword newPassword : String) :
    IssuesCurrent (changePassword S p v bearer currentPassword newPassword) := by
  unfold changePassword
  split
  · exact IssuesCurrent.of_nil rfl
  next user howner =>
    refine issueLoginResponse_current v ?_
    unfold passwordOwner at howner
    simp only [bind_eq_ok, pure_eq_ok, require_eq_ok] at howner
    obtain ⟨current, -, u, hget, -, -, -, -, rfl⟩ := howner
    have hid : u.id = current.id := Table.id_of_get? hget
    show u.id ≤ p.db.users.seq
    rw [hid]
    exact Table.le_seq_of_get? hget

theorem issued_current (hsteps : PlatformSteps S x.before x.label x.after) :
    ∀ token ∈ issuedAt S x, AtLeast token.sub token.tv x.after := by
  have hcurrent : IssuesCurrent (serve S x.before x.label) := by
    have hrun : IssuesCurrent (x.label.call.run S x.before x.label.toVisit) := by
      cases x.label.call with
      | login username password => exact login_current _ username password
      | refresh cookie => exact refresh_current _ cookie
      | changePassword bearer currentPassword newPassword =>
        exact changePassword_current _ bearer currentPassword newPassword
      | logout cookie =>
        dsimp only [PlatformCall.run]
        unfold logout
        split <;> exact IssuesCurrent.of_nil rfl
      | revokeMySession bearer sessionId =>
        dsimp only [PlatformCall.run]
        unfold revokeMySession
        split
        · exact IssuesCurrent.of_nil rfl
        · split <;> exact IssuesCurrent.of_nil rfl
      | signedIn bearer call =>
        dsimp only [PlatformCall.run]
        split
        · exact IssuesCurrent.of_nil rfl
        · exact IssuesCurrent.of_nil (AccountCall.run_tokens S _ _ _ call)
      | purgeStale => exact IssuesCurrent.of_nil rfl
      | purgeDeadSessions => exact IssuesCurrent.of_nil rfl
    exact hrun
  intro token htoken
  obtain ⟨hseq, hversion⟩ := hcurrent token htoken
  rw [hsteps.2]
  exact ⟨hseq, Nat.le_of_eq hversion⟩

/-! ## Old tokens -/

theorem accepts_spec {now : Nat} (h : accepts p now token = true) :
    activeIn p token.sub = true ∧ token.tv = p.tokenVersion token.sub := by
  unfold accepts at h
  unfold activeIn
  rw [Bool.or_eq_true] at h
  obtain hsigned | hrefresh := h
  · cases hcaller : signedInUser p now (some token) true with
    | error e =>
      rw [hcaller] at hsigned
      cases hsigned
    | ok caller =>
      obtain ⟨_, u, htoken, -, hget, hactive, hversion, -⟩ := signedInUser_ok hcaller
      cases htoken
      rw [hget]
      exact ⟨hactive, hversion⟩
  · cases hbearer : refreshBearer p now (some token) with
    | error e =>
      rw [hbearer] at hrefresh
      cases hrefresh
    | ok bearer =>
      obtain ⟨user, jti⟩ := bearer
      obtain ⟨_, htoken, -, -, hget, hactive, hversion, -⟩ := refreshBearer_ok hbearer
      cases htoken
      rw [hget]
      exact ⟨hactive, hversion⟩

/-- The version was raised past the token's, or the account is off and waits for it to be raised. -/
def Ended (S : Deployment) (k version : Nat) (tr : List (Taken Platform PlatformRequest)) (p : Platform) :
    Prop :=
  AtLeast k version p ∧
    (version < p.tokenVersion k ∨ activeIn p k = false ∧ endedSinceOff S k tr = false)

/-- Where an account is switched on again, its tokens were ended since it was switched off. -/
def ReopensClean (S : Deployment) (k : Nat) (x : Taken Platform PlatformRequest)
    (old : List (Taken Platform PlatformRequest)) : Prop :=
  switchedOn k x = true → endedSinceOff S k (x :: old) = true

theorem Ended.refuses {version : Nat} (h : Ended S k version tr p) (hsub : token.sub = k)
    (hversion : token.tv = version) (now : Nat) : accepts p now token = false := by
  by_contra haccepts
  obtain ⟨hactive, hcurrent⟩ := accepts_spec (by simpa using haccepts)
  rw [hsub] at hactive hcurrent
  obtain ⟨-, hraised | ⟨hoff, -⟩⟩ := h
  · omega
  · rw [hactive] at hoff
    cases hoff

theorem Ended.step {version : Nat} (h : Ended S k version old x.before)
    (hsteps : PlatformSteps S x.before x.label x.after) (hclean : ReopensClean S k x old) :
    Ended S k version (x :: old) x.after := by
  obtain ⟨hleast, hcases⟩ := h
  refine ⟨hleast.step hsteps, ?_⟩
  have hkept : x.before.tokenVersion k ≤ x.after.tokenVersion k :=
    (AtLeast.step ⟨hleast.1, Nat.le_refl _⟩ hsteps).2
  obtain hraised | ⟨hoff, hwaits⟩ := hcases
  · exact Or.inl (by omega)
  · by_cases hends : endsTokens S k x = true
    · have hversion := version_of_endsTokens hsteps hends
      exact Or.inl (by have := hleast.2; omega)
    · have hstill : endedSinceOff S k (x :: old) = false := by
        simp [endedSinceOff, hends, hwaits]
      refine Or.inr ⟨?_, hstill⟩
      by_contra hon
      have hreopened : switchedOn k x = true := by
        unfold switchedOn
        rw [hoff]
        simpa using hon
      rw [hclean hreopened] at hstill
      cases hstill

/-- The step that switches the account off, or resets its password. -/
theorem ended_of_event {version : Nat} (hleast : AtLeast k version x.before)
    (hsteps : PlatformSteps S x.before x.label x.after)
    (hevent : switchedOff k x = true ∨ resetsPassword S k x = true) :
    Ended S k version (x :: old) x.after := by
  refine ⟨hleast.step hsteps, ?_⟩
  by_cases hends : endsTokens S k x = true
  · have hversion := version_of_endsTokens hsteps hends
    exact Or.inl (by have := hleast.2; omega)
  · have hoff : switchedOff k x = true := by
      obtain hoff | hresets := hevent
      · exact hoff
      · refine absurd ?_ hends
        simp [endsTokens, hresets]
    refine Or.inr ⟨?_, by simp [endedSinceOff, hends, hoff]⟩
    unfold switchedOff at hoff
    rw [Bool.and_eq_true] at hoff
    simpa using hoff.2

theorem ended_of_run {version : Nat} {init : Platform → Prop}
    (h : PlatformRun S init (new ++ x :: old) p) (hleast : AtLeast k version x.before)
    (hevent : switchedOff k x = true ∨ resetsPassword S k x = true)
    (hclean : ∀ later y earlier, new = later ++ y :: earlier →
      ReopensClean S k y (earlier ++ x :: old)) :
    Ended S k version (new ++ x :: old) p := by
  induction new generalizing p with
  | nil =>
    cases h with
    | cons hold hsteps => exact ended_of_event (x := ⟨_, _, _⟩) hleast hsteps hevent
  | cons y new ih =>
    cases h with
    | @cons _ q e _ hrun hsteps =>
      have hbefore := ih hrun fun later z earlier heq => hclean (⟨q, e, p⟩ :: later) z earlier (by simp [heq])
      exact Ended.step (x := ⟨q, e, p⟩) hbefore hsteps (hclean [] _ new rfl)

end

/-- In every run where an account is switched on again only after its tokens were ended, no token that was
handed out before an account was switched off or its password reset is accepted at any later request, or at
the end. -/
theorem old_tokens_stay_refused (S : Deployment) {tr : List (Taken Platform PlatformRequest)}
    {p : Platform} (h : PlatformRun S (fun _ => True) tr p)
    (hclean : ∀ new x old, tr = new ++ x :: old → ∀ k, ReopensClean S k x old) :
    ∀ new y old, tr = new ++ y :: old → ∀ k, (switchedOff k y = true ∨ resetsPassword S k y = true) →
      ∀ w ∈ old, ∀ token ∈ issuedAt S w, token.sub = k →
        (∀ z ∈ new, accepts z.before z.label.env.now token = false) ∧
          ∀ now, accepts p now token = false := by
  rintro new y old rfl k hevent w hw token htoken rfl
  obtain ⟨hold, -⟩ := h.cut
  have hleast : AtLeast token.sub token.tv y.before := by
    obtain ⟨later, earlier, rfl⟩ := List.append_of_mem hw
    exact (issued_current hold.cut.2 token htoken).run hold.cut_after
  constructor
  · intro z hz
    obtain ⟨later, earlier, rfl⟩ := List.append_of_mem hz
    have hrun : PlatformRun S (fun _ => True) (earlier ++ y :: old) z.before := by
      have hcut := h
      rw [List.append_assoc] at hcut
      exact hcut.cut.1
    refine (ended_of_run hrun hleast hevent ?_).refuses rfl rfl _
    rintro newer x older rfl
    exact hclean (later ++ z :: newer) x (older ++ y :: old) (by simp) token.sub
  · refine (ended_of_run h hleast hevent ?_).refuses rfl rfl
    rintro newer x older rfl
    exact hclean newer x (older ++ y :: old) (by simp) token.sub

/-! ## Off and on again -/

/-- The deputy of account 6 logs in; the account 4 switches his account off. The newest first. -/
def deputyOff : List PlatformRequest :=
  [requestAt 3 (.signedIn (bearerOf 4 .hr 2) (.updateUser 6 { isActive := some false } none)),
    requestAt 2 (.login "hr" "secret"), requestAt 1 (.login "deputy2" "secret")]

/-- The account is switched on again, with another password or without. -/
def deputyOnAgain (password : Option String) : PlatformRequest :=
  requestAt 4 (.signedIn (bearerOf 4 .hr 2) (.updateUser 6 { isActive := some true } password))

theorem deputyOnAgain_run (password : Option String)
    (horder : inOrder ordinarySettings officePlatform (deputyOnAgain password :: deputyOff) = true) :
    PlatformRun ordinarySettings (fun _ => True)
      (replay (served ordinarySettings) officePlatform (deputyOnAgain password :: deputyOff))
      (endState (served ordinarySettings) officePlatform (deputyOnAgain password :: deputyOff)) :=
  platformRun_replay trivial horder

/-- The access token from before is accepted after the account was switched off and on. -/
theorem old_token_is_accepted :
    ∃ tr p, PlatformRun ordinarySettings (fun _ => True) tr p ∧
      ∃ new y old, tr = new ++ y :: old ∧ switchedOff 6 y = true ∧
        ∃ w ∈ old, ∃ token ∈ issuedAt ordinarySettings w, token.sub = 6 ∧ accepts p 5 token = true :=
  ⟨_, _, deputyOnAgain_run none (by decide), [_], _, _, rfl, by decide, by decide⟩

/-- The check of `ReopensClean` over the accounts that there are. -/
def reopensClean (S : Deployment) : List (Taken Platform PlatformRequest) → Bool
  | [] => true
  | x :: tr =>
    (x.after.db.users.rows.all fun u => !switchedOn u.id x || endedSinceOff S u.id (x :: tr)) &&
      reopensClean S tr

theorem reopensClean_spec {S : Deployment} {tr new old : List (Taken Platform PlatformRequest)}
    {x : Taken Platform PlatformRequest} (h : reopensClean S tr = true) (htr : tr = new ++ x :: old)
    (k : Nat) : ReopensClean S k x old := by
  induction new generalizing tr with
  | nil =>
    intro hon
    subst htr
    rw [List.nil_append, reopensClean, Bool.and_eq_true] at h
    have hactive : activeIn x.after k = true := by
      unfold switchedOn at hon
      rw [Bool.and_eq_true] at hon
      exact hon.2
    obtain ⟨u, hget, -⟩ := exists_of_any hactive
    have hid : u.id = k := Table.id_of_get? hget
    have hclean := List.all_eq_true.mp h.1 u (Table.mem_of_get? hget)
    rw [hid] at hclean
    simpa [hon] using hclean
  | cons y new ih =>
    subst htr
    rw [List.cons_append, reopensClean, Bool.and_eq_true] at h
    exact ih h.2 rfl

/-- With another password, the old one is refused. -/
theorem old_token_is_refused :
    ∃ w ∈ replay (served ordinarySettings) officePlatform deputyOff,
      ∃ token ∈ issuedAt ordinarySettings w, token.sub = 6 ∧
        accepts (endState (served ordinarySettings) officePlatform
          (deputyOnAgain (some "another") :: deputyOff)) 5 token = false :=
  have hrun := deputyOnAgain_run (some "another") (by decide)
  have hclean : reopensClean ordinarySettings (replay (served ordinarySettings) officePlatform
      (deputyOnAgain (some "another") :: deputyOff)) = true := by decide
  have hrefused := old_tokens_stay_refused ordinarySettings hrun
    (fun _ _ _ heq => reopensClean_spec hclean heq)
    [_] _ (replay (served ordinarySettings) officePlatform deputyOff.tail) rfl 6
    (Or.inl (by decide))
  ⟨_, List.mem_cons_of_mem _ (List.mem_cons_of_mem _ List.mem_cons_self), _, List.mem_cons_self,
    by decide,
    (hrefused _ (List.mem_cons_of_mem _ List.mem_cons_self) _ List.mem_cons_self
      (by decide)).2 5⟩

end NexaHR
