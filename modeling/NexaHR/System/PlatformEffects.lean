import NexaHR.System.AccountSteps
import NexaHR.System.PlatformStep

/-! # What a request does to the accounts of the platform

The accounts, the versions of their tokens and their capabilities, after each request.

* `elsewhere_users`: the operations beside the accounts leave them.
* `AccountEffect`, `accountEffect_of_serve`: the ways they change, with what was checked.
-/

namespace NexaHR

open Foundations

set_option autoImplicit false

section

variable {db db' : Database} {env : Env} {user : CurrentUser}

/-! ## Operations that leave the accounts -/

theorem published_users (h : Published db user db') : db'.users = db.users := by
  obtain ⟨indicators, changeKind, changeNote, log, notifications, -, rfl⟩ := h
  rfl

theorem elsewhere_users {op : Operation} (hop : op.writesAccounts = false)
    (h : op.run db env user = .ok db') : db'.users = db.users := by
  cases op with
  | createUser | updateUser | deleteUser | createPersonnel | importPersonnel | updatePersonnel => cases hop
  | onRecord k op =>
    dsimp only [Operation.run] at h
    unfold onRecord at h
    simp only [bind_eq_ok, pure_eq_ok] at h
    obtain ⟨-, -, -, -, r, -, w, -, rfl⟩ := h
    rfl
  | createEvaluation personnelId =>
    obtain ⟨access, log, notifications, -, -, rfl⟩ := createEvaluation_ok h
    exact openRecords_users env [access]
  | runBulkCreate cohort =>
    obtain ⟨log, notifications, rfl⟩ := runBulkCreate_ok h
    exact openRecords_users env _
  | upsertAccess personnelId payload =>
    dsimp only [Operation.run] at h
    unfold upsertAccess at h
    simp only [bind_eq_ok, pure_eq_ok] at h
    obtain ⟨-, -, -, -, -, -, -, -, -, -, -, -, -, -, chain, -, rfl⟩ := h
    exact writeAccess_users personnelId chain user.id
  | createOrgUnit site name =>
    obtain ⟨-, _, rfl⟩ := createOrgUnit_ok h
    rfl
  | updateOrgUnit unitId payload =>
    obtain ⟨_, -, -, -, _, rfl⟩ := updateOrgUnit_ok h
    rfl
  | deleteOrgUnit unitId =>
    obtain ⟨_, -, -, _, rfl⟩ := deleteOrgUnit_ok h
    rfl
  | createPeriod name startsOn endsOn =>
    dsimp only [Operation.run] at h
    unfold createPeriod at h
    simp only [bind_eq_ok, pure_eq_ok] at h
    obtain ⟨-, -, -, -, -, -, rfl⟩ := h
    rfl
  | updatePeriod periodId name startsOn endsOn =>
    dsimp only [Operation.run] at h
    unfold updatePeriod at h
    simp only [bind_eq_ok, pure_eq_ok] at h
    obtain ⟨-, -, -, -, -, -, -, -, -, -, rfl⟩ := h
    rfl
  | closePeriod periodId force =>
    dsimp only [Operation.run] at h
    unfold closePeriod at h
    simp only [bind_eq_ok, pure_eq_ok] at h
    obtain ⟨-, -, -, -, -, -, -, -, rfl⟩ := h
    rfl
  | deletePeriod periodId =>
    dsimp only [Operation.run] at h
    unfold deletePeriod at h
    simp only [bind_eq_ok, pure_eq_ok] at h
    obtain ⟨-, -, -, -, -, -, rfl⟩ := h
    rfl
  | createIndicator «section» category description => exact published_users (createIndicator_published h)
  | updateIndicator indicatorId payload =>
    have hok := updateIndicator_ok h
    split at hok
    · exact published_users hok
    · obtain ⟨indicators, log, -, rfl⟩ := hok
      rfl
  | replaceIndicator indicatorId category description reason =>
    exact published_users (replaceIndicator_published h)
  | deleteIndicator indicatorId => exact published_users (deleteIndicator_published h)
  | reorderIndicators «section» orderedIds =>
    dsimp only [Operation.run] at h
    unfold reorderIndicators at h
    simp only [bind_eq_ok, pure_eq_ok] at h
    obtain ⟨-, -, -, -, rfl⟩ := h
    rfl
  | createScheme payload =>
    dsimp only [Operation.run] at h
    unfold createScheme at h
    simp only [bind_eq_ok] at h
    obtain ⟨-, -, -, -, h⟩ := h
    split at h
    · rw [pure_eq_ok] at h
      subst h
      rfl
    · cases h
  | activateScheme schemeId =>
    dsimp only [Operation.run] at h
    unfold activateScheme activate at h
    simp only [bind_eq_ok, pure_eq_ok] at h
    obtain ⟨-, -, _, -, _, ⟨-, -, -, -, -, -, rfl⟩, rfl⟩ := h
    rfl
  | deleteDraft schemeId =>
    dsimp only [Operation.run] at h
    unfold deleteDraft at h
    simp only [bind_eq_ok, pure_eq_ok] at h
    obtain ⟨-, -, _, -, -, -, rfl⟩ := h
    rfl

/-! ## A person who leaves -/

/-- The account that `closeAccount` switches off. -/
def accountToClose (db : Database) (personnelId : Nat) : Option User :=
  (db.users.rows.find? fun u => u.personnelId = some personnelId).filter User.isActive

def closedUsers (users : Table User) : Option User → Table User
  | none => users
  | some account => users.put { account with isActive := false }

theorem closeAccount_users (db : Database) (env : Env) (user : CurrentUser) (person : Personnel) :
    (closeAccount db env user person).users = closedUsers db.users (accountToClose db person.id) := by
  unfold closeAccount accountToClose
  cases db.users.rows.find? fun u => u.personnelId = some person.id with
  | none => rfl
  | some account =>
    dsimp only
    rw [Option.filter_some]
    cases account.isActive <;> rfl

theorem cancelOnDeparture_users {person : Personnel}
    (h : cancelOnDeparture db env user person = .ok db') : db'.users = db.users := by
  unfold cancelOnDeparture at h
  split at h
  · cases h
    rfl
  · simp only [bind_eq_ok, pure_eq_ok] at h
    obtain ⟨w, -, rfl⟩ := h
    rfl

theorem clearManagersSupervisor_users (db : Database) (env : Env) (user : CurrentUser)
    (person : Personnel) : (clearManagersSupervisor db env user person).users = db.users := by
  obtain ⟨accesses, log, -, heq⟩ := clearManagersSupervisor_eq db env user person
  rw [heq]
  rfl

theorem updatePersonnel_users {personnelId : Nat} {payload : PersonnelUpdate}
    (h : updatePersonnel db env user personnelId payload = .ok db') :
    ∃ person, db.personnel.get? personnelId = some person ∧
      db'.users = closedUsers db.users
        (if person.isLeaving payload then accountToClose db person.id else none) := by
  unfold updatePersonnel at h
  simp only [bind_eq_ok, pure_eq_ok, require_eq_ok] at h
  obtain ⟨-, -, person, hget, -, -, -, -, -, -, -, -, closed, hclosed, rfl⟩ := h
  refine ⟨person, hget, ?_⟩
  rw [clearManagersSupervisor_users]
  have hid : (person.updated env payload).id = person.id := rfl
  unfold closeOutIfLeaving at hclosed
  by_cases hleaving : person.isLeaving payload = true
  · rw [if_pos hleaving] at hclosed ⊢
    unfold closeOutDeparture at hclosed
    simp only [bind_eq_ok, pure_eq_ok] at hclosed
    obtain ⟨cancelled, hcancelled, rfl⟩ := hclosed
    have husers := cancelOnDeparture_users hcancelled
    rw [closeAccount_users, hid]
    unfold accountToClose
    rw [husers]
    rfl
  · rw [if_neg hleaving] at hclosed ⊢
    cases hclosed
    rfl

end

/-! ## The bearer of a token -/

section

variable {p : Platform} {now : Nat} {bearer cookie : Option Token}

theorem decodeToken_ok {token payload : Token} (h : decodeToken now token = some payload) :
    payload = token ∧ token.iat ≤ now ∧ now < token.exp := by
  unfold decodeToken at h
  split at h
  next hvalid =>
    cases h
    exact ⟨rfl, hvalid⟩
  next => cases h

/-- An access token that is accepted: its account is active, and its version is current. -/
theorem signedInUser_ok {exempt : Bool} {caller : CurrentUser}
    (h : signedInUser p now bearer exempt = .ok caller) :
    ∃ token u, bearer = some token ∧ token.type = .access ∧ p.db.users.get? token.sub = some u ∧
      u.isActive = true ∧ token.tv = p.tokenVersion token.sub ∧ caller = u.toCurrent := by
  unfold signedInUser at h
  simp only [bind_eq_ok, pure_eq_ok, require_eq_ok, ensure_eq_ok] at h
  obtain ⟨token, htoken, payload, hdecoded, -, htype, u, hget, -, hactive, -, hversion, -, -, rfl⟩ := h
  obtain ⟨rfl, -, -⟩ := decodeToken_ok hdecoded
  have hid : u.id = payload.sub := Table.id_of_get? hget
  rw [hid] at hversion
  exact ⟨payload, u, htoken, htype, hget, hactive, hversion, rfl⟩

/-- A refresh cookie that may be exchanged. -/
theorem refreshBearer_ok {user : User} {jti : Nat}
    (h : refreshBearer p now cookie = .ok (user, jti)) :
    ∃ token, cookie = some token ∧ token.type = .refresh ∧ token.jti = some jti ∧
      p.db.users.get? token.sub = some user ∧ user.isActive = true ∧
      token.tv = p.tokenVersion token.sub ∧ now < token.exp := by
  unfold refreshBearer at h
  simp only [bind_eq_ok, pure_eq_ok, require_eq_ok, ensure_eq_ok] at h
  obtain ⟨token, htoken, payload, hdecoded, -, htype, j, hjti, u, hget, -, hactive, -, hversion, hpair⟩ := h
  cases hpair
  obtain ⟨rfl, -, hlive⟩ := decodeToken_ok hdecoded
  have hid : user.id = payload.sub := Table.id_of_get? hget
  rw [hid] at hversion
  exact ⟨payload, htoken, htype, hjti, hget, hactive, hversion, hlive⟩

end

/-! ## The effects -/

/-- The caller of an endpoint behind the bearer token. -/
def IsCaller (p : Platform) (req : PlatformRequest) (call : AccountCall) (caller : CurrentUser) : Prop :=
  ∃ bearer, req.call = .signedIn bearer call ∧ signedInUser p req.env.now bearer false = .ok caller

inductive AccountEffect (p : Platform) (req : PlatformRequest) (answer : Answer) : Prop
  | kept (husers : answer.2.db.users = p.db.users) (hcaps : answer.2.userCapabilities = p.userCapabilities)
      (hversions : ∀ k, answer.2.tokenVersion k = p.tokenVersion k)
  | passwordChanged (userId : Nat) (husers : answer.2.db.users = p.db.users)
      (hcaps : answer.2.userCapabilities = p.userCapabilities)
      (hversions : ∀ k, answer.2.tokenVersion k = if k = userId then p.tokenVersion k + 1 else p.tokenVersion k)
  | grown (hgrows : Table.Grows p.db.users answer.2.db.users)
      (hcaps : answer.2.userCapabilities = p.userCapabilities)
      (hversions : ∀ k, k ≤ p.db.users.seq → answer.2.tokenVersion k = p.tokenVersion k)
  | createdHr (hok : answer.1.isOk = true) (caller : CurrentUser) (payload : UserCreate) (password : String)
      (hcaller : IsCaller p req (.createUser payload password) caller)
      (hgrows : Table.Grows p.db.users answer.2.db.users) (u : User)
      (hget : answer.2.db.users.get? (p.db.users.seq + 1) = some u) (hrole : u.role = .hr)
      (hcaps : answer.2.userCapabilities =
        (applyDefaultHrCapabilities p (p.db.users.seq + 1)).userCapabilities)
      (hversions : ∀ k, k ≤ p.db.users.seq → answer.2.tokenVersion k = p.tokenVersion k)
  | updated (hok : answer.1.isOk = true) (caller : CurrentUser) (userId : Nat) (payload : UserUpdate) (password : Option String)
      (hcaller : IsCaller p req (.updateUser userId payload password) caller) (u : User)
      (hget : p.db.users.get? userId = some u) (hself : ensureNotOwnLockout u caller payload = .ok ())
      (husers : answer.2.db.users = p.db.users.put (u.updated payload))
      (hcaps : answer.2.userCapabilities =
        if p.entersHr userId payload then (applyDefaultHrCapabilities p userId).userCapabilities
        else p.userCapabilities)
      (hversions : ∀ k, answer.2.tokenVersion k =
        if k = userId ∧ password.isSome = true then p.tokenVersion k + 1 else p.tokenVersion k)
  | deleted (hok : answer.1.isOk = true) (caller : CurrentUser) (userId : Nat) (hcaller : IsCaller p req (.deleteUser userId) caller)
      (hself : userId ≠ caller.id)
      (husers : answer.2.db.users = p.db.users.filter fun u => u.id ≠ userId)
      (hcaps : answer.2.userCapabilities = p.userCapabilities.filter fun row =>
        !(row.userId = userId || row.grantedByUserId = some userId))
      (hversions : ∀ k, answer.2.tokenVersion k = p.tokenVersion k)
  | departed (hok : answer.1.isOk = true) (caller : CurrentUser) (personnelId : Nat) (payload : PersonnelUpdate)
      (hcaller : IsCaller p req (.updatePersonnel personnelId payload) caller) (account : User)
      (hclosing : p.closingAccount personnelId payload = some account)
      (husers : answer.2.db.users = p.db.users.put { account with isActive := false })
      (hcaps : answer.2.userCapabilities = p.userCapabilities)
      (hversions : ∀ k, answer.2.tokenVersion k =
        if k = account.id then p.tokenVersion k + 1 else p.tokenVersion k)
  | granted (hok : answer.1.isOk = true) (caller : CurrentUser) (userId : Nat) (desired : List Capability)
      (hcaller : IsCaller p req (.setCapabilities userId desired) caller) (target : User)
      (htarget : capabilityTarget p req.env caller userId desired = .ok target)
      (husers : answer.2.db.users = p.db.users)
      (hcaps : answer.2.userCapabilities =
        (grantAll (revokeWhere p fun row => row.userId = userId && !desired.contains row.capability)
          userId (some caller.id)
          (desired.dedup.filter fun c => !(capabilitiesOf p userId).contains c)).userCapabilities)
      (hversions : ∀ k, answer.2.tokenVersion k = p.tokenVersion k)

section

variable {S : Deployment} {p : Platform} {req : PlatformRequest} {caller : CurrentUser}

theorem AccountEffect.same {result : Except HTTPException Reply} : AccountEffect p req (result, p) :=
  AccountEffect.kept rfl rfl fun _ => rfl

/-- An endpoint of the directory that refuses has no effect. -/
theorem accountEffect_withDirectory {result : Except HTTPException Database}
    {around : Platform → Platform}
    (h : ∀ db, result = .ok db → AccountEffect p req (.ok .noContent, around { p with db := db })) :
    AccountEffect p req (withDirectory p result around) := by
  cases result with
  | error e => exact AccountEffect.same
  | ok db => exact h db rfl

theorem grantAll_users (p : Platform) (userId : Nat) (grantedBy : Option Nat) (cs : List Capability) :
    (grantAll p userId grantedBy cs).db = p.db ∧
      (grantAll p userId grantedBy cs).credentials = p.credentials := by
  induction cs generalizing p with
  | nil => exact ⟨rfl, rfl⟩
  | cons c cs ih => exact ih (grant p userId grantedBy c)

/-- Which rows a grant adds depends on the rows alone. -/
theorem grantAll_congr {p q : Platform} (h : p.userCapabilities = q.userCapabilities) (userId : Nat)
    (grantedBy : Option Nat) (cs : List Capability) :
    (grantAll p userId grantedBy cs).userCapabilities = (grantAll q userId grantedBy cs).userCapabilities := by
  induction cs generalizing p q with
  | nil => exact h
  | cons c cs ih =>
    refine ih (p := grant p userId grantedBy c) (q := grant q userId grantedBy c) ?_
    unfold grant
    dsimp only
    rw [h]

theorem applyDefault_users (p : Platform) (userId : Nat) :
    (applyDefaultHrCapabilities p userId).db = p.db ∧
      (applyDefaultHrCapabilities p userId).credentials = p.credentials :=
  grantAll_users (revokeWhere p fun row => row.userId = userId) userId none defaultHrCapabilities

theorem applyDefault_congr {p q : Platform} (h : p.userCapabilities = q.userCapabilities) (userId : Nat) :
    (applyDefaultHrCapabilities p userId).userCapabilities =
      (applyDefaultHrCapabilities q userId).userCapabilities := by
  refine grantAll_congr ?_ userId none defaultHrCapabilities
  show p.userCapabilities.filter _ = q.userCapabilities.filter _
  rw [h]

theorem endTokens_tokenVersion (p : Platform) (now userId : Nat) (passwordHash : String)
    (mustChange : Bool) (k : Nat) :
    (endTokens p now userId passwordHash mustChange).tokenVersion k =
      if k = userId then p.tokenVersion k + 1 else p.tokenVersion k := by
  show (if k = userId then _ else p.credentials k : Credential).tokenVersion = _
  by_cases hk : k = userId
  · subst hk
    rw [if_pos rfl, if_pos rfl]
  · rw [if_neg hk, if_neg hk]
    rfl

theorem withCredential_tokenVersion (p : Platform) (userId : Nat) (c : Credential) {k : Nat}
    (hk : k ≠ userId) : (p.withCredential userId c).tokenVersion k = p.tokenVersion k := by
  unfold Platform.tokenVersion Platform.withCredential
  dsimp only
  rw [if_neg hk]

/-! ## Each endpoint -/

theorem createUser_users {db db' : Database} {env : Env} {payload : UserCreate}
    (h : createUser db env caller payload = .ok db') :
    Table.Grows db.users db'.users ∧
      ∃ u, db'.users.get? (db.users.seq + 1) = some u ∧ u.role = payload.role := by
  unfold createUser at h
  simp only [bind_eq_ok, pure_eq_ok] at h
  obtain ⟨-, -, -, -, -, -, -, -, rfl⟩ := h
  exact ⟨insertUser_grows _ _ _ _, _, Table.get?_insert_self _ _ _, rfl⟩

theorem createUser_effect {payload : UserCreate} {password : String}
    (hcaller : IsCaller p req (.createUser payload password) caller) :
    AccountEffect p req (p.createUser S req.env caller payload password) := by
  unfold Platform.createUser
  apply accountEffect_withDirectory
  intro db hdb
  obtain ⟨hgrows, u, hget, hrole⟩ := createUser_users hdb
  have hversions : ∀ k, k ≤ p.db.users.seq →
      (({ p with db := db } : Platform).withCredential (p.db.users.seq + 1)
        (temporaryCredential S password)).tokenVersion k = p.tokenVersion k := by
    intro k hk
    rw [withCredential_tokenVersion _ _ _ (by omega)]
    rfl
  dsimp only
  by_cases hhr : payload.role = .hr
  · rw [if_pos hhr]
    have hrest := applyDefault_users (({ p with db := db } : Platform).withCredential
      (p.db.users.seq + 1) (temporaryCredential S password)) (p.db.users.seq + 1)
    refine AccountEffect.createdHr rfl caller payload password hcaller ?_ u ?_ (hrole.trans hhr)
      (applyDefault_congr rfl _) ?_
    · rw [hrest.1]
      exact hgrows
    · rw [hrest.1]
      exact hget
    · intro k hk
      rw [← hversions k hk]
      unfold Platform.tokenVersion
      rw [hrest.2]
  · rw [if_neg hhr]
    exact AccountEffect.grown hgrows rfl hversions

theorem updateUser_users {db db' : Database} {env : Env} {userId : Nat} {payload : UserUpdate}
    (h : updateUser db env caller userId payload = .ok db') :
    ∃ u, db.users.get? userId = some u ∧ ensureNotOwnLockout u caller payload = .ok () ∧
      db'.users = db.users.put (u.updated payload) := by
  unfold updateUser at h
  simp only [bind_eq_ok, pure_eq_ok, require_eq_ok] at h
  obtain ⟨-, -, u, hget, _, hself, -, -, -, -, -, -, rfl⟩ := h
  exact ⟨u, hget, hself, rfl⟩

theorem updateUser_effect {userId : Nat} {payload : UserUpdate} {password : Option String}
    (hcaller : IsCaller p req (.updateUser userId payload password) caller) :
    AccountEffect p req (p.updateUser S req.env caller userId payload password) := by
  unfold Platform.updateUser
  apply accountEffect_withDirectory
  intro db hdb
  obtain ⟨u, hget, hself, husers⟩ := updateUser_users hdb
  generalize hgranted : (if p.entersHr userId payload then
      applyDefaultHrCapabilities { p with db := db } userId else { p with db := db }) = granted
  have hrest : granted.db = db ∧ granted.credentials = p.credentials := by
    rw [← hgranted]
    split
    · exact applyDefault_users { p with db := db } userId
    · exact ⟨rfl, rfl⟩
  have hcaps : granted.userCapabilities =
      if p.entersHr userId payload then (applyDefaultHrCapabilities p userId).userCapabilities
      else p.userCapabilities := by
    rw [← hgranted]
    split
    · exact applyDefault_congr rfl userId
    · rfl
  have hversions : ∀ k, granted.tokenVersion k = p.tokenVersion k := by
    intro k
    unfold Platform.tokenVersion
    rw [hrest.2]
  rw [← hrest.1] at husers
  cases password with
  | none =>
    refine AccountEffect.updated rfl caller userId payload none hcaller u hget hself husers hcaps ?_
    intro k
    rw [show (if k = userId ∧ (none : Option String).isSome = true then p.tokenVersion k + 1
      else p.tokenVersion k) = p.tokenVersion k by simp]
    exact hversions k
  | some password =>
    refine AccountEffect.updated rfl caller userId payload (some password) hcaller u hget hself husers hcaps ?_
    intro k
    rw [endTokens_tokenVersion, hversions]
    simp

theorem deleteUser_users {db db' : Database} {env : Env} {userId : Nat}
    (h : deleteUser db env caller userId = .ok db') :
    userId ≠ caller.id ∧ db'.users = db.users.filter fun u => u.id ≠ userId := by
  unfold deleteUser at h
  simp only [bind_eq_ok, pure_eq_ok, require_eq_ok, ensure_eq_ok] at h
  obtain ⟨-, -, u, hget, -, hself, -, -, -, -, rfl⟩ := h
  have hid : u.id = userId := Table.id_of_get? hget
  rw [← hid]
  exact ⟨hself, rfl⟩

theorem deleteUser_effect {userId : Nat} (hcaller : IsCaller p req (.deleteUser userId) caller) :
    AccountEffect p req (p.deleteUser req.env caller userId) := by
  unfold Platform.deleteUser
  apply accountEffect_withDirectory
  intro db hdb
  obtain ⟨hself, husers⟩ := deleteUser_users hdb
  exact AccountEffect.deleted rfl caller userId hcaller hself husers rfl fun _ => rfl

theorem createPersonnel_grows {db db' : Database} {env : Env} {payload : PersonnelFields}
    {username : Option String} (h : createPersonnel db env caller payload username = .ok db') :
    Table.Grows db.users db'.users := by
  unfold createPersonnel at h
  simp only [bind_eq_ok, pure_eq_ok] at h
  obtain ⟨-, -, -, -, -, -, -, -, rfl⟩ := h
  exact insertOwnAccount_grows (insertPersonnel db payload .active) username _

theorem createPersonnel_effect (payload : PersonnelFields) (account : Option (String × String)) :
    AccountEffect p req (p.createPersonnel S req.env caller payload account) := by
  unfold Platform.createPersonnel
  apply accountEffect_withDirectory
  intro db hdb
  have hgrows := createPersonnel_grows hdb
  cases account with
  | none => exact AccountEffect.grown hgrows rfl fun _ _ => rfl
  | some account =>
    refine AccountEffect.grown hgrows rfl ?_
    intro k hk
    rw [withCredential_tokenVersion _ _ _ (by omega)]
    rfl

theorem importPersonnel_grows {db db' : Database} {env : Env} {rows : List ImportRow}
    (h : importPersonnel db env caller rows = .ok db') : Table.Grows db.users db'.users := by
  unfold importPersonnel at h
  simp only [bind_eq_ok, pure_eq_ok] at h
  obtain ⟨-, -, -, -, rfl⟩ := h
  exact importRows_grows env (validRows db [] rows)

theorem importPersonnel_effect (rows : List ImportRow) (passwords : String → String) :
    AccountEffect p req (p.importPersonnel S req.env caller rows passwords) := by
  unfold Platform.importPersonnel
  apply accountEffect_withDirectory
  intro db hdb
  have hgrows := importPersonnel_grows hdb
  dsimp only
  generalize hnew : db.users.rows.filter (fun u => p.db.users.seq < u.id) = new
  have hlater : ∀ u ∈ new, p.db.users.seq < u.id := by
    intro u hu
    rw [← hnew] at hu
    simpa using (List.mem_filter.mp hu).2
  have hfold : ∀ q : Platform,
      (new.foldl (fun q u => q.withCredential u.id (temporaryCredential S (passwords u.username))) q).db =
          q.db ∧
        (new.foldl (fun q u => q.withCredential u.id
          (temporaryCredential S (passwords u.username))) q).userCapabilities = q.userCapabilities ∧
        ∀ k, k ≤ p.db.users.seq →
          (new.foldl (fun q u => q.withCredential u.id
            (temporaryCredential S (passwords u.username))) q).tokenVersion k = q.tokenVersion k := by
    clear hnew
    induction new with
    | nil => exact fun q => ⟨rfl, rfl, fun _ _ => rfl⟩
    | cons u new ih =>
      intro q
      obtain ⟨hdb, hcaps, hversions⟩ := ih (fun v hv => hlater v (List.mem_cons_of_mem _ hv))
        (q.withCredential u.id (temporaryCredential S (passwords u.username)))
      refine ⟨hdb, hcaps, fun k hk => ?_⟩
      have hne : k ≠ u.id := by
        have := hlater u List.mem_cons_self
        omega
      rw [List.foldl_cons, hversions k hk, withCredential_tokenVersion _ _ _ hne]
  obtain ⟨hdb', hcaps, hversions⟩ := hfold { p with db := db }
  refine AccountEffect.grown ?_ hcaps hversions
  rw [hdb']
  exact hgrows

theorem updatePersonnel_effect {personnelId : Nat} {payload : PersonnelUpdate}
    (hcaller : IsCaller p req (.updatePersonnel personnelId payload) caller) :
    AccountEffect p req (p.updatePersonnel req.env caller personnelId payload) := by
  unfold Platform.updatePersonnel
  apply accountEffect_withDirectory
  intro db hdb
  obtain ⟨person, hget, husers⟩ := updatePersonnel_users hdb
  have hclosing : p.closingAccount personnelId payload =
      if person.isLeaving payload then accountToClose p.db person.id else none := by
    unfold Platform.closingAccount
    rw [hget]
    rfl
  rw [← hclosing] at husers
  cases haccount : p.closingAccount personnelId payload with
  | none =>
    rw [haccount] at husers
    exact AccountEffect.kept husers rfl fun _ => rfl
  | some account =>
    rw [haccount] at husers
    refine AccountEffect.departed rfl caller personnelId payload hcaller account haccount husers rfl ?_
    intro k
    rw [endTokens_tokenVersion]
    rfl

theorem setCapabilities_effect {userId : Nat} {desired : List Capability}
    (hcaller : IsCaller p req (.setCapabilities userId desired) caller) :
    AccountEffect p req (setCapabilities p req.env caller userId desired) := by
  unfold setCapabilities
  cases htarget : capabilityTarget p req.env caller userId desired with
  | error e => exact AccountEffect.same
  | ok target =>
    have hrest := grantAll_users
      (revokeWhere p fun row => row.userId = userId && !desired.contains row.capability) userId
      (some caller.id) (desired.dedup.filter fun c => !(capabilitiesOf p userId).contains c)
    refine AccountEffect.granted rfl caller userId desired hcaller target htarget ?_ rfl ?_
    · show (grantAll _ _ _ _).db.users = p.db.users
      rw [hrest.1]
      rfl
    · intro k
      show ((grantAll _ _ _ _).credentials k).tokenVersion = _
      rw [hrest.2]
      rfl

theorem unlockUser_effect (userId : Nat) : AccountEffect p req (p.unlockUser req.env caller userId) := by
  unfold Platform.unlockUser
  split
  · exact AccountEffect.same
  · refine AccountEffect.kept ?_ ?_ ?_ <;>
      · unfold unlock
        split <;> first | rfl | exact fun _ => rfl

/-! ## Every request -/

theorem AccountCall.effect {call : AccountCall} (hcaller : IsCaller p req call caller) :
    AccountEffect p req (call.run S p req.env caller) := by
  cases call with
  | unlockUser userId => exact unlockUser_effect userId
  | setCapabilities userId desired => exact setCapabilities_effect hcaller
  | createUser payload password => exact createUser_effect hcaller
  | updateUser userId payload password => exact updateUser_effect hcaller
  | deleteUser userId => exact deleteUser_effect hcaller
  | createPersonnel payload account => exact createPersonnel_effect payload account
  | importPersonnel rows passwords => exact importPersonnel_effect rows passwords
  | updatePersonnel personnelId payload => exact updatePersonnel_effect hcaller
  | elsewhere op =>
    refine accountEffect_withDirectory fun db hdb => ?_
    exact AccountEffect.kept (elsewhere_users op.property hdb) rfl fun _ => rfl

/-- A platform that differs in neither accounts nor credentials nor capabilities. -/
theorem AccountEffect.of_same {answer : Answer} (hdb : answer.2.db.users = p.db.users)
    (hcaps : answer.2.userCapabilities = p.userCapabilities)
    (hcredentials : answer.2.credentials = p.credentials) : AccountEffect p req answer := by
  refine AccountEffect.kept hdb hcaps fun k => ?_
  unfold Platform.tokenVersion
  rw [hcredentials]

theorem revokeSession_rest (p : Platform) (now jti : Nat) :
    (revokeSession p now jti).db = p.db ∧ (revokeSession p now jti).credentials = p.credentials ∧
      (revokeSession p now jti).userCapabilities = p.userCapabilities := by
  unfold revokeSession
  split
  · exact ⟨rfl, rfl, rfl⟩
  · split <;> exact ⟨rfl, rfl, rfl⟩

theorem rotateSession_rest (S : Deployment) (p : Platform) (now userId jti : Nat)
    (userAgent ip : Option String) :
    (rotateSession S p now userId jti userAgent ip).2.db = p.db ∧
      (rotateSession S p now userId jti userAgent ip).2.credentials = p.credentials ∧
      (rotateSession S p now userId jti userAgent ip).2.userCapabilities = p.userCapabilities := by
  unfold rotateSession
  split
  · exact ⟨rfl, rfl, rfl⟩
  · split
    · exact ⟨rfl, rfl, rfl⟩
    · split
      · split <;> exact ⟨rfl, rfl, rfl⟩
      · exact ⟨rfl, rfl, rfl⟩

/-- A failed login is counted, logged and reported; everything else stays. -/
theorem failLogin_kept (S : Deployment) (p : Platform) (v : Visit) (username : String) (userId : Option Nat) :
    ∃ attempts log notifications, failLogin S p v username userId =
      { p with
        db := { p.db with auditLog := log, notifications := notifications }
        loginAttempts := attempts } := by
  have hrecord : ∃ attempts,
      (recordFailure S p v.env.now username).2 = { p with loginAttempts := attempts } := by
    unfold recordFailure
    dsimp only
    split
    · exact ⟨_, rfl⟩
    · exact ⟨_, rfl⟩
  unfold failLogin
  generalize recordFailure S p v.env.now username = counted at hrecord
  obtain ⟨attempts, hcounted⟩ := hrecord
  dsimp only
  rw [hcounted]
  split
  · exact ⟨attempts, _, _, rfl⟩
  · exact ⟨attempts, _, _, rfl⟩

theorem login_effect (username password : String) :
    AccountEffect p req (login S p req.toVisit username password) := by
  unfold login
  split
  · exact AccountEffect.same
  · split
    · obtain ⟨attempts, log, notifications, hkept⟩ := failLogin_kept S p req.toVisit username none
      rw [hkept]
      exact AccountEffect.of_same rfl rfl rfl
    next user _ =>
      split
      · split
        · exact AccountEffect.of_same rfl rfl rfl
        · exact AccountEffect.same
      · obtain ⟨attempts, log, notifications, hkept⟩ :=
          failLogin_kept S p req.toVisit username (some user.id)
        rw [hkept]
        exact AccountEffect.of_same rfl rfl rfl

theorem refresh_effect (cookie : Option Token) :
    AccountEffect p req (refresh S p req.toVisit cookie) := by
  unfold refresh
  split
  · exact AccountEffect.same
  next user jti _ =>
    obtain ⟨hdb, hcredentials, hcaps⟩ :=
      rotateSession_rest S p req.env.now user.id jti req.userAgent req.ip
    dsimp only
    split <;>
      next heq =>
        rw [heq] at hdb hcredentials hcaps
        exact AccountEffect.of_same (congrArg Database.users hdb) hcaps hcredentials

theorem changePassword_effect (bearer : Option Token) (currentPassword newPassword : String) :
    AccountEffect p req (changePassword S p req.toVisit bearer currentPassword newPassword) := by
  unfold changePassword
  split
  · exact AccountEffect.same
  next user _ =>
    refine AccountEffect.passwordChanged user.id rfl rfl fun k => ?_
    exact endTokens_tokenVersion p req.env.now user.id (S.hashPassword newPassword) false k

theorem revokeMySession_effect (bearer : Option Token) (sessionId : Nat) :
    AccountEffect p req (revokeMySession p req.toVisit bearer sessionId) := by
  unfold revokeMySession
  split
  · exact AccountEffect.same
  · split
    · exact AccountEffect.of_same rfl rfl rfl
    · exact AccountEffect.same

theorem run_effect (S : Deployment) (p : Platform) (req : PlatformRequest) :
    AccountEffect p req (req.call.run S p req.toVisit) := by
  cases hcall : req.call with
  | login username password => exact login_effect username password
  | refresh cookie => exact refresh_effect cookie
  | logout cookie =>
    dsimp only [PlatformCall.run]
    unfold logout
    split
    · exact AccountEffect.same
    next jti _ =>
      obtain ⟨hdb, hcredentials, hcaps⟩ := revokeSession_rest p req.env.now jti
      exact AccountEffect.of_same (congrArg Database.users hdb) hcaps hcredentials
  | changePassword bearer currentPassword newPassword =>
    exact changePassword_effect bearer currentPassword newPassword
  | revokeMySession bearer sessionId => exact revokeMySession_effect bearer sessionId
  | signedIn bearer call =>
    dsimp only [PlatformCall.run]
    cases hsigned : signedInUser p req.env.now bearer false with
    | error e => exact AccountEffect.same
    | ok caller => exact AccountCall.effect ⟨bearer, hcall, hsigned⟩
  | purgeStale => exact AccountEffect.of_same rfl rfl rfl
  | purgeDeadSessions => exact AccountEffect.of_same rfl rfl rfl

/-- The time of the request is no part of the effect. -/
theorem AccountEffect.at_time {answer : Answer} (h : AccountEffect p req answer) (clock : Nat) :
    AccountEffect p req (answer.1, { answer.2 with clock := clock }) := by
  cases h with
  | kept husers hcaps hversions => exact .kept husers hcaps hversions
  | passwordChanged k husers hcaps hversions => exact .passwordChanged k husers hcaps hversions
  | grown hgrows hcaps hversions => exact .grown hgrows hcaps hversions
  | createdHr hok caller payload password hcaller hgrows u hget hrole hcaps hversions =>
    exact .createdHr hok caller payload password hcaller hgrows u hget hrole hcaps hversions
  | updated hok caller k payload password hcaller u hget hself husers hcaps hversions =>
    exact .updated hok caller k payload password hcaller u hget hself husers hcaps hversions
  | deleted hok caller k hcaller hself husers hcaps hversions =>
    exact .deleted hok caller k hcaller hself husers hcaps hversions
  | departed hok caller k payload hcaller account hclosing husers hcaps hversions =>
    exact .departed hok caller k payload hcaller account hclosing husers hcaps hversions
  | granted hok caller k desired hcaller target htarget husers hcaps hversions =>
    exact .granted hok caller k desired hcaller target htarget husers hcaps hversions

theorem accountEffect_of_serve (S : Deployment) (p : Platform) (req : PlatformRequest) :
    AccountEffect p req (serve S p req) := (run_effect S p req).at_time req.env.now

end

end NexaHR
