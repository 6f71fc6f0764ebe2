import NexaHR.System.PlatformEffects
import NexaHR.System.PlatformStep
import NexaHR.Tools.People

/-! # What a card shows is what the tool does

A card shows, for some fields of an account or of a chain, what the field is to become. The fields of the
platform are compared one by one: one that the card shows has the shown value after the tool, and every other
one has what it had.

* `Field`: the fields of accounts and of chains, with their labels and their texts.
* `RowsAreTrue`, `CardIsTrue`: what the card of a call tells is so, and the call did nothing else.
* `PreviewedCall.RowsFit`, `PreviewedCall.Fits`: the conditions under which that holds.
* `card_is_true_iff`: of a call that is carried out, exactly under these conditions.
-/

namespace NexaHR

open Foundations

set_option autoImplicit false

/-! ## Calls -/

inductive PreviewedCall
  | updateUser (a : UpdateUserArguments)
  | setEvaluationAccess (a : EvaluationAccessArguments)
  | grantCapabilities (a : GrantArguments)

/-- Whom a card is about. -/
inductive CardSubject
  | account (userId : Nat)
  | person (personnelId : Nat)
  deriving DecidableEq

namespace PreviewedCall

def subject : PreviewedCall → CardSubject
  | updateUser a => .account a.userId
  | setEvaluationAccess a => .person a.personnelId
  | grantCapabilities a => .account a.userId

def preview (p : Platform) : PreviewedCall → List PreviewRow
  | updateUser a => previewUpdateUser p.db a
  | setEvaluationAccess a => previewSetEvaluationAccess p a
  | grantCapabilities a => previewGrant p a

/-- The password that the call gives the account. -/
def newPassword : PreviewedCall → Option String
  | updateUser a => truthy a.password
  | setEvaluationAccess _ | grantCapabilities _ => none

def run (errorText : String → String) (S : Deployment) (p : Platform) (env : Env) (user : CurrentUser) :
    PreviewedCall → Except ToolFailure Platform
  | updateUser a => updateUserTool errorText S p env user a
  | setEvaluationAccess a => setEvaluationAccessTool p env user a
  | grantCapabilities a => grantCapabilitiesTool p env user a

end PreviewedCall

/-! ## Fields -/

inductive AccountField
  | username | fullName | role | isActive | personnelId | password | mustChangePassword | tokenVersion
  | capability (c : Capability)
  deriving DecidableEq

inductive Field
  | account (userId : Nat) (f : AccountField)
  | seat (personnelId : Nat) (s : ChainSeat)
  deriving DecidableEq

def AccountField.label : AccountField → String
  | username => "نام کاربری"
  | fullName => "نام و نام خانوادگی"
  | role => "نقش"
  | isActive => "وضعیت حساب"
  | personnelId => "پرسنل"
  | password => "رمز عبور"
  | mustChangePassword => "must_change_password"
  | tokenVersion => "token_version"
  | capability c => capabilityLabel c

namespace Field

def subject : Field → CardSubject
  | account userId _ => .account userId
  | seat personnelId _ => .person personnelId

def label : Field → String
  | account _ f => f.label
  | seat _ s => cardSeatLabel s

/-- The field has in `p'` what it had in `p`. -/
def Kept (p p' : Platform) : Field → Prop
  | account k .username => (p'.db.users.get? k).map User.username = (p.db.users.get? k).map User.username
  | account k .fullName => (p'.db.users.get? k).map User.fullName = (p.db.users.get? k).map User.fullName
  | account k .role => (p'.db.users.get? k).map User.role = (p.db.users.get? k).map User.role
  | account k .isActive => (p'.db.users.get? k).map User.isActive = (p.db.users.get? k).map User.isActive
  | account k .personnelId =>
    (p'.db.users.get? k).map User.personnelId = (p.db.users.get? k).map User.personnelId
  | account k .password => (p'.credentials k).passwordHash = (p.credentials k).passwordHash
  | account k .mustChangePassword => (p'.credentials k).mustChangePassword = (p.credentials k).mustChangePassword
  | account k .tokenVersion => p'.tokenVersion k = p.tokenVersion k
  | account k (.capability c) => hasCapability p' k c = hasCapability p k c
  | seat k s => seatOf p'.db k s = seatOf p.db k s

/-- What a card writes of the field as it is in `p'`, coming from `p`. The new password is not written out, but it is
the one that the call gives. -/
def Shows (S : Deployment) (p p' : Platform) (call : PreviewedCall) (text : String) : Field → Prop
  | account k .username => text = formatValue (optionalStr ((p'.db.users.get? k).map User.username))
  | account k .fullName => text = formatValue (optionalStr ((p'.db.users.get? k).bind User.fullName))
  | account k .role => text = formatValue (optionalStr ((p'.db.users.get? k).map fun u => roleLabel u.role))
  | account k .isActive => ∃ u, p'.db.users.get? k = some u ∧ text = formatValue (.bool u.isActive)
  | account k .personnelId =>
    text = formatValue (optionalStr (((p'.db.users.get? k).bind User.personnelId).map toString))
  | account k .password =>
    text = "بازنشانی می‌شود" ∧
      ∃ password, call.newPassword = some password ∧ (p'.credentials k).passwordHash = S.hashPassword password
  | account k .mustChangePassword => text = formatValue (.bool (p'.credentials k).mustChangePassword)
  | account k .tokenVersion => text = toString (p'.tokenVersion k)
  | account k (.capability c) =>
    (text = "اضافه می‌شود" ∧ hasCapability p k c = false ∧ hasCapability p' k c = true) ∨
      (text = "حذف می‌شود" ∧ hasCapability p k c = true ∧ hasCapability p' k c = false)
  | seat k s => text = formatValue (.str (nameOrDash p'.db (seatOf p'.db k s)))

end Field

/-! ## Cards -/

/-- What the rows show under a label. -/
def rowFor (rows : List PreviewRow) (label : String) : Option String :=
  (rows.find? fun row => row.label = label).map PreviewRow.after

/-- What the card of the call shows of a field. -/
def PreviewedCall.shown (p : Platform) (call : PreviewedCall) (f : Field) : Option String :=
  if f.subject = call.subject then rowFor (call.preview p) f.label else none

/-- Nothing but accounts, chains and the log is written. -/
structure RestKept (p p' : Platform) : Prop where
  db : p'.db =
    { p.db with
      users := p'.db.users
      evaluationAccess := p'.db.evaluationAccess
      auditLog := p'.db.auditLog }
  loginAttempts : p'.loginAttempts = p.loginAttempts

/-- Every field that the card shows is as shown. -/
def RowsAreTrue (S : Deployment) (p p' : Platform) (call : PreviewedCall) : Prop :=
  ∀ f text, call.shown p f = some text → f.Shows S p p' call text

/-- Every field that the card shows is as shown, and every other is as it was. -/
structure CardIsTrue (S : Deployment) (p p' : Platform) (call : PreviewedCall) : Prop where
  shown : RowsAreTrue S p p' call
  unseen : ∀ f, call.shown p f = none → f.Kept p p'
  rest : RestKept p p'

/-- The field is as shown, or as it was where nothing is shown. -/
def FieldIsTrue (S : Deployment) (p p' : Platform) (call : PreviewedCall) (shown : Option String) (f : Field) : Prop :=
  match shown with
  | some text => f.Shows S p p' call text
  | none => f.Kept p p'

theorem cardIsTrue_iff {S : Deployment} {p p' : Platform} {call : PreviewedCall} (hrest : RestKept p p') :
    CardIsTrue S p p' call ↔ ∀ f, FieldIsTrue S p p' call (call.shown p f) f := by
  constructor
  · intro h f
    unfold FieldIsTrue
    split
    next text hshown => exact h.shown f text hshown
    next hshown => exact h.unseen f hshown
  · intro h
    refine ⟨?_, ?_, hrest⟩
    · intro f text hshown
      have hf := h f
      rw [hshown] at hf
      exact hf
    · intro f hshown
      have hf := h f
      rw [hshown] at hf
      exact hf

/-! ## The condition -/

/-- The name is given as it is stored, or is none and none is stored. -/
def NameFits (p : Platform) (a : UpdateUserArguments) : Prop :=
  ∀ name, a.fullName = some name →
    strip name = name ∧ (name = "" → (p.db.users.get? a.userId).bind User.fullName = none)

/-- The link is not asked for, or is there already. -/
def LinkFits (p : Platform) (a : UpdateUserArguments) : Prop :=
  ∀ k, a.personnelId = some k → (p.db.users.get? a.userId).bind User.personnelId = some k

/-- An account that enters HR has the capabilities that HR gets. -/
def DefaultsFit (p : Platform) (a : UpdateUserArguments) : Prop :=
  a.role = some UserRole.hr.value → (∀ u, p.db.users.get? a.userId = some u → u.role ≠ .hr) →
    ∀ c, hasCapability p a.userId c = true ↔ c ∈ defaultHrCapabilities

/-- A seat that is given no name is empty. -/
def SeatsFit (p : Platform) (a : EvaluationAccessArguments) : Prop :=
  ∀ s, a.given s = "" → nameOrDash p.db (seatOf p.db a.personnelId s) = "—"

/-- The rows of the card fit. -/
def PreviewedCall.RowsFit (p : Platform) : PreviewedCall → Prop
  | updateUser a => ∀ name, truthy a.fullName = some name → strip name = name
  | setEvaluationAccess a => SeatsFit p a
  | grantCapabilities _ => True

/-- The rows fit, and nothing else is changed. -/
def PreviewedCall.Fits (p : Platform) : PreviewedCall → Prop
  | updateUser a => NameFits p a ∧ LinkFits p a ∧ DefaultsFit p a ∧ truthy a.password = none
  | setEvaluationAccess a => SeatsFit p a
  | grantCapabilities _ => True

/-! ## Reading rows -/

section

variable {rows rows' : List PreviewRow} {row : PreviewRow} {label : String}

@[simp] theorem rowFor_nil : rowFor [] label = none := rfl

theorem rowFor_cons : rowFor (row :: rows) label = if row.label = label then some row.after else rowFor rows label := by
  unfold rowFor
  by_cases h : row.label = label
  · simp [h]
  · simp [h]

theorem rowFor_append : rowFor (rows ++ rows') label = (rowFor rows label).or (rowFor rows' label) := by
  unfold rowFor
  rw [List.find?_append]
  cases rows.find? fun row => row.label = label with
  | none => rfl
  | some row => rfl

/-- A row that may be there. -/
theorem rowFor_toList {α : Type} {o : Option α} {mk : α → PreviewRow} {own : String}
    (hlabel : ∀ a, (mk a).label = own) :
    rowFor (o.map mk).toList label = if own = label then o.map fun a => (mk a).after else none := by
  cases o with
  | none => simp
  | some a =>
    have h := @rowFor_cons [] (mk a) label
    rw [hlabel] at h
    simpa using h

end

/-! ## The card of an account -/

section

variable {errorText : String → String} {S : Deployment} {p p' : Platform} {env : Env} {user : CurrentUser}
  {a : UpdateUserArguments}

theorem formatValue_str {s : String} (h : s ≠ "") : formatValue (.str s) = s := by
  unfold formatValue
  rw [if_neg h]

theorem truthy_eq_some {text : Option String} {s : String} : truthy text = some s ↔ text = some s ∧ s ≠ "" := by
  simp [truthy]

/-- What the card shows under a label other than those of its notes. -/
theorem rowFor_previewUpdateUser (db : Database) (a : UpdateUserArguments) {label : String}
    (hheader : "حساب کاربری" ≠ label) (hnote : "تغییری" ≠ label) :
    rowFor (previewUpdateUser db a) label = rowFor (requestedRows db a) label := by
  have hrest : rowFor (if requestedRows db a = [] then
      [change "تغییری" .none (.str "درخواست نشده") .info] else requestedRows db a) label =
        rowFor (requestedRows db a) label := by
    split
    next hempty =>
      rw [hempty, rowFor_cons, if_neg (by simpa [change] using hnote)]
    next => rfl
  unfold previewUpdateUser
  rw [rowFor_cons, if_neg (by simpa [change] using hheader), hrest]

theorem rowFor_requestedRows (db : Database) (a : UpdateUserArguments) (label : String) :
    rowFor (requestedRows db a) label =
      (((if "نام و نام خانوادگی" = label then (truthy a.fullName).map fun name => formatValue (.str name)
            else none).or
          (if "نقش" = label then (truthy a.role).map fun role =>
            formatValue (.str (((UserRole.ofValue role).map roleLabel).getD role)) else none)).or
        (if "وضعیت حساب" = label then a.isActive.map fun isActive => formatValue (.bool isActive)
          else none)).or
        (if "رمز عبور" = label then (truthy a.password).map fun _ => formatValue (.str "بازنشانی می‌شود")
          else none) := by
  have hname := @rowFor_toList label String (truthy a.fullName)
    (fun name =>
      change "نام و نام خانوادگی" (optionalStr ((db.users.get? a.userId).map db.displayName)) (.str name) .change)
    "نام و نام خانوادگی" fun _ => rfl
  have hrole := @rowFor_toList label String (truthy a.role) (fun role => roleRow db a.userId role) "نقش"
    fun _ => rfl
  have hstatus := @rowFor_toList label Bool a.isActive (fun isActive => statusRow db a.userId isActive)
    "وضعیت حساب" fun _ => rfl
  have hpassword := @rowFor_toList label String (truthy a.password)
    (fun _ => change "رمز عبور" .none (.str "بازنشانی می‌شود") .change) "رمز عبور" fun _ => rfl
  unfold requestedRows
  rw [rowFor_append, rowFor_append, rowFor_append, hname, hrole, hstatus, hpassword]
  rfl

/-- What the card shows of each field of the account. -/
def shownOfAccount (a : UpdateUserArguments) : AccountField → Option String
  | .fullName => truthy a.fullName
  | .role => (truthy a.role).map fun role => ((UserRole.ofValue role).map roleLabel).getD role
  | .isActive => a.isActive.map fun isActive => formatValue (.bool isActive)
  | .password => (truthy a.password).map fun _ => "بازنشانی می‌شود"
  | .username | .personnelId | .mustChangePassword | .tokenVersion | .capability _ => none

theorem roleLabel_ne (role : UserRole) : roleLabel role ≠ "" := by
  cases role <;> decide

theorem capabilityLabel_apart (c : Capability) :
    ∀ label ∈ ["حساب کاربری", "تغییری", "نام و نام خانوادگی", "نقش", "وضعیت حساب", "رمز عبور", "نام کاربری",
      "پرسنل", "must_change_password", "token_version", "تغییری در مجوزها"], label ≠ capabilityLabel c := by
  cases c <;> decide

theorem map_formatValue {α : Type} {o : Option α} {text : α → String} (h : ∀ b, o = some b → text b ≠ "") :
    (o.map fun b => formatValue (.str (text b))) = o.map text := by
  cases o with
  | none => rfl
  | some b => exact congrArg some (formatValue_str (h b rfl))

theorem shown_updateUser (p : Platform) (a : UpdateUserArguments) (f : AccountField) :
    (PreviewedCall.updateUser a).shown p (.account a.userId f) = shownOfAccount a f := by
  have hshown : (PreviewedCall.updateUser a).shown p (.account a.userId f) =
      rowFor (previewUpdateUser p.db a) f.label := if_pos rfl
  rw [hshown]
  cases f with
  | fullName =>
    rw [rowFor_previewUpdateUser _ _ (by decide) (by decide), rowFor_requestedRows]
    simp only [AccountField.label, shownOfAccount]
    have hname : ((truthy a.fullName).map fun name => formatValue (.str name)) = (truthy a.fullName).map id :=
      map_formatValue fun name h => (truthy_eq_some.mp h).2
    simp [hname]
  | role =>
    rw [rowFor_previewUpdateUser _ _ (by decide) (by decide), rowFor_requestedRows]
    simp only [AccountField.label, shownOfAccount]
    have hne : ∀ value, truthy a.role = some value →
        ((UserRole.ofValue value).map roleLabel).getD value ≠ "" := by
      intro value h
      cases UserRole.ofValue value with
      | none => exact (truthy_eq_some.mp h).2
      | some role => exact roleLabel_ne role
    simp [map_formatValue hne]
  | isActive =>
    rw [rowFor_previewUpdateUser _ _ (by decide) (by decide), rowFor_requestedRows]
    simp [AccountField.label, shownOfAccount]
  | password =>
    rw [rowFor_previewUpdateUser _ _ (by decide) (by decide), rowFor_requestedRows]
    simp [AccountField.label, shownOfAccount, formatValue]
  | username =>
    rw [rowFor_previewUpdateUser _ _ (by decide) (by decide), rowFor_requestedRows]
    simp [AccountField.label, shownOfAccount]
  | personnelId =>
    rw [rowFor_previewUpdateUser _ _ (by decide) (by decide), rowFor_requestedRows]
    simp [AccountField.label, shownOfAccount]
  | mustChangePassword =>
    rw [rowFor_previewUpdateUser _ _ (by decide) (by decide), rowFor_requestedRows]
    simp [AccountField.label, shownOfAccount]
  | tokenVersion =>
    rw [rowFor_previewUpdateUser _ _ (by decide) (by decide), rowFor_requestedRows]
    simp [AccountField.label, shownOfAccount]
  | capability c =>
    have hapart := capabilityLabel_apart c
    show rowFor (previewUpdateUser p.db a) (capabilityLabel c) = none
    rw [rowFor_previewUpdateUser _ _ (hapart _ (by simp)) (hapart _ (by simp)), rowFor_requestedRows]
    simp [hapart]

/-- What `update_user` makes of how an account signs in. -/
def credentialAfter (S : Deployment) (p : Platform) (a : UpdateUserArguments) (k : Nat) : Credential :=
  match truthy a.password with
  | none => p.credentials k
  | some password =>
    if k = a.userId then
      { passwordHash := S.hashPassword password, mustChangePassword := true, tokenVersion := p.tokenVersion k + 1 }
    else p.credentials k

/-- What a carried out `update_user` left. -/
structure AccountUpdated (S : Deployment) (p p' : Platform) (a : UpdateUserArguments) (u : User)
    (asked : Option UserRole) : Prop where
  found : p.db.users.get? a.userId = some u
  role : ∀ value, a.role = some value → UserRole.ofValue value = asked ∧ asked ≠ none
  noRole : a.role = none → asked = none
  users : p'.db.users = p.db.users.put (u.updated (a.payload asked))
  credentials : ∀ k, p'.credentials k = credentialAfter S p a k
  capabilities : ∀ k c, hasCapability p' k c =
    hasCapability (if p.entersHr a.userId (a.payload asked) then applyDefaultHrCapabilities p a.userId else p) k c
  access : p'.db.evaluationAccess = p.db.evaluationAccess
  rest : RestKept p p'

theorem readRole_ok {role : Option String} {read : Option UserRole} (h : readRole errorText role = .ok read) :
    (∀ value, role = some value → UserRole.ofValue value = read ∧ read ≠ none) ∧ (role = none → read = none) := by
  unfold readRole at h
  cases role with
  | none =>
    cases h
    exact ⟨nofun, fun _ => rfl⟩
  | some value =>
    dsimp only at h
    cases hread : UserRole.ofValue value with
    | none =>
      rw [hread] at h
      cases h
    | some read =>
      rw [hread] at h
      cases h
      refine ⟨?_, nofun⟩
      intro other hother
      rw [← Option.some.inj hother, hread]
      exact ⟨rfl, Option.some_ne_none read⟩

theorem answered_ok {answer : Answer} (h : answered answer = .ok p') :
    (∃ reply, answer.1 = .ok reply) ∧ answer.2 = p' := by
  unfold answered at h
  cases hreply : answer.1 with
  | error e =>
    rw [hreply] at h
    cases h
  | ok reply =>
    rw [hreply] at h
    cases h
    exact ⟨⟨reply, rfl⟩, rfl⟩

theorem grantAll_attempts (p : Platform) (userId : Nat) (grantedBy : Option Nat) (cs : List Capability) :
    (grantAll p userId grantedBy cs).loginAttempts = p.loginAttempts := by
  induction cs generalizing p with
  | nil => rfl
  | cons c cs ih => exact ih (grant p userId grantedBy c)

theorem applyDefault_attempts (p : Platform) (userId : Nat) :
    (applyDefaultHrCapabilities p userId).loginAttempts = p.loginAttempts :=
  grantAll_attempts (revokeWhere p fun row => row.userId = userId) userId none defaultHrCapabilities

/-- The new capabilities of an account that enters HR, on a database that is written already. -/
theorem granted_spec (p : Platform) (db : Database) (userId : Nat) (enters : Bool) :
    let granted :=
      if enters then applyDefaultHrCapabilities { p with db := db } userId else { p with db := db }
    granted.db = db ∧ granted.credentials = p.credentials ∧ granted.loginAttempts = p.loginAttempts ∧
      ∀ k c, hasCapability granted k c =
        hasCapability (if enters then applyDefaultHrCapabilities p userId else p) k c := by
  cases enters with
  | false => exact ⟨rfl, rfl, rfl, fun _ _ => rfl⟩
  | true =>
    obtain ⟨hdb, hcredentials⟩ := applyDefault_users { p with db := db } userId
    refine ⟨hdb, hcredentials, applyDefault_attempts _ userId, ?_⟩
    intro k c
    exact hasCapability_congr (applyDefault_congr rfl userId)

theorem credentialAfter_other {S : Deployment} {p : Platform} {a : UpdateUserArguments} {k : Nat} (hk : k ≠ a.userId) :
    credentialAfter S p a k = p.credentials k := by
  unfold credentialAfter
  split
  · rfl
  · exact if_neg hk

theorem credentialAfter_none {S : Deployment} {p : Platform} {a : UpdateUserArguments} {k : Nat}
    (h : truthy a.password = none) : credentialAfter S p a k = p.credentials k := by
  unfold credentialAfter
  rw [h]

theorem credentialAfter_some {S : Deployment} {p : Platform} {a : UpdateUserArguments} {password : String}
    (h : truthy a.password = some password) : credentialAfter S p a a.userId =
      { passwordHash := S.hashPassword password
        mustChangePassword := true
        tokenVersion := p.tokenVersion a.userId + 1 } := by
  unfold credentialAfter
  rw [h]
  exact if_pos rfl

theorem endTokens_credentials (p : Platform) (now userId : Nat) (passwordHash : String) (k : Nat) :
    (endTokens p now userId passwordHash true).credentials k =
      if k = userId then
        { passwordHash := passwordHash, mustChangePassword := true, tokenVersion := p.tokenVersion k + 1 }
      else p.credentials k := by
  by_cases hk : k = userId
  · rw [if_pos hk, hk]
    exact if_pos rfl
  · rw [if_neg hk]
    exact if_neg hk

theorem updateUser_tables {db : Database} {payload : UserUpdate} {userId : Nat}
    (h : NexaHR.updateUser p.db env user userId payload = .ok db) :
    ∃ u, p.db.users.get? userId = some u ∧
      db = ({ p.db with users := p.db.users.put (u.updated payload) } : Database).log
        [directoryEvent env user "user_updated"] := by
  unfold NexaHR.updateUser at h
  simp only [bind_eq_ok, pure_eq_ok, require_eq_ok] at h
  obtain ⟨-, -, u, hget, -, -, -, -, -, -, -, -, rfl⟩ := h
  exact ⟨u, hget, rfl⟩

theorem updateUserTool_ok (h : updateUserTool errorText S p env user a = .ok p') :
    ∃ u asked, AccountUpdated S p p' a u asked := by
  unfold updateUserTool at h
  simp only [bind_eq_ok, refusing_eq_ok, ensure_eq_ok] at h
  obtain ⟨-, -, asked, hrole, -, -, -, -, hanswer⟩ := h
  obtain ⟨hvalue, hnone⟩ := readRole_ok hrole
  obtain ⟨⟨reply, hreply⟩, rfl⟩ := answered_ok hanswer
  unfold Platform.updateUser withDirectory at hreply ⊢
  cases hupdate : NexaHR.updateUser p.db (callerEnv p env user) user a.userId (a.payload asked) with
  | error e =>
    rw [hupdate] at hreply
    cases hreply
  | ok db =>
    obtain ⟨u, hget, rfl⟩ := updateUser_tables hupdate
    dsimp only
    obtain ⟨hdb, hcredentials, hattempts, hcapabilities⟩ :=
      granted_spec p (({ p.db with users := p.db.users.put (u.updated (a.payload asked)) } : Database).log
        [directoryEvent (callerEnv p env user) user "user_updated"]) a.userId
        (p.entersHr a.userId (a.payload asked))
    generalize (if p.entersHr a.userId (a.payload asked) = true then
      applyDefaultHrCapabilities _ a.userId else _ : Platform) = granted at *
    have husers : granted.db.users = p.db.users.put (u.updated (a.payload asked)) := by
      rw [hdb]
      rfl
    have haccess : granted.db.evaluationAccess = p.db.evaluationAccess := by
      rw [hdb]
      rfl
    have hrest : granted.db =
        { p.db with
          users := granted.db.users
          evaluationAccess := granted.db.evaluationAccess
          auditLog := granted.db.auditLog } := by
      rw [hdb]
      rfl
    cases hpassword : truthy a.password with
    | none =>
      refine ⟨u, asked, hget, hvalue, hnone, husers, ?_, hcapabilities, haccess, hrest, hattempts⟩
      intro k
      unfold credentialAfter
      rw [hpassword]
      exact congrFun hcredentials k
    | some password =>
      refine ⟨u, asked, hget, hvalue, hnone, husers, ?_, hcapabilities, haccess, hrest, hattempts⟩
      intro k
      have hended := endTokens_credentials granted env.now a.userId (S.hashPassword password) k
      unfold Platform.tokenVersion at hended
      rw [hcredentials] at hended
      unfold credentialAfter
      rw [hpassword]
      exact hended

namespace AccountUpdated

variable {u : User} {asked : Option UserRole}

theorem after_self (h : AccountUpdated S p p' a u asked) :
    p'.db.users.get? a.userId = some (u.updated (a.payload asked)) := by
  have hid : u.id = a.userId := Table.id_of_get? h.found
  have hself : HasId.id (u.updated (a.payload asked)) = a.userId := hid
  rw [h.users, ← hself]
  exact Table.get?_put_self (by rw [hself]; exact h.found)

theorem after_other (h : AccountUpdated S p p' a u asked) {k : Nat} (hk : k ≠ a.userId) :
    p'.db.users.get? k = p.db.users.get? k := by
  have hid : u.id = a.userId := Table.id_of_get? h.found
  have hself : HasId.id (u.updated (a.payload asked)) = a.userId := hid
  rw [h.users]
  exact Table.get?_put_ne (by rw [hself]; exact hk)

/-- The fields of other accounts and of the chains are as they were. -/
theorem elsewhere (h : AccountUpdated S p p' a u asked) {f : Field} (hf : f.subject ≠ .account a.userId) :
    f.Kept p p' := by
  cases f with
  | seat k s =>
    show seatOf p'.db k s = seatOf p.db k s
    unfold seatOf Database.accessOf
    rw [h.access]
  | account k f =>
    have hk : k ≠ a.userId := by
      intro heq
      rw [heq] at hf
      exact hf rfl
    have hget := h.after_other hk
    cases f with
    | username => exact congrArg (Option.map User.username) hget
    | fullName => exact congrArg (Option.map User.fullName) hget
    | role => exact congrArg (Option.map User.role) hget
    | isActive => exact congrArg (Option.map User.isActive) hget
    | personnelId => exact congrArg (Option.map User.personnelId) hget
    | password =>
      exact congrArg Credential.passwordHash ((h.credentials k).trans (credentialAfter_other hk))
    | mustChangePassword =>
      exact congrArg Credential.mustChangePassword ((h.credentials k).trans (credentialAfter_other hk))
    | tokenVersion => exact congrArg Credential.tokenVersion ((h.credentials k).trans (credentialAfter_other hk))
    | capability c =>
      show hasCapability p' k c = hasCapability p k c
      rw [h.capabilities k c]
      split
      · apply Bool.eq_iff_iff.mpr
        rw [hasCapability_applyDefault, if_neg hk]
      · rfl

/-- What the card writes of a stored name. -/
theorem formatValue_name {name : String} (hname : name ≠ "") :
    name = formatValue (optionalStr (strippedName name)) ↔ strip name = name := by
  unfold strippedName truthy
  by_cases hblank : strip name = ""
  · have hdash : strip "—" ≠ "" := by decide
    have hne : ¬strip name = name := by
      rw [hblank]
      exact Ne.symm hname
    have hnone : (some (strip name)).filter (fun s => s ≠ "") = none := by simp [hblank]
    rw [hnone]
    constructor
    · intro htext
      rw [htext] at hblank
      exact absurd hblank hdash
    · intro heq
      exact absurd heq hne
  · have hsome : (some (strip name)).filter (fun s => s ≠ "") = some (strip name) := by simp [hblank]
    rw [hsome]
    unfold optionalStr
    rw [formatValue_str hblank]
    exact eq_comm

theorem shows_name_iff (h : AccountUpdated S p p' a u asked) {name : String} (hname : truthy a.fullName = some name) :
    (Field.account a.userId .fullName).Shows S p p' (.updateUser a) name ↔ strip name = name := by
  obtain ⟨hgiven, hne⟩ := truthy_eq_some.mp hname
  have hfield : (u.updated (a.payload asked)).fullName = (a.fullName.map strippedName).getD u.fullName := rfl
  dsimp only [Field.Shows]
  rw [h.after_self, Option.bind_some, hfield, hgiven, Option.map_some, Option.getD_some]
  exact formatValue_name hne

theorem name_iff (h : AccountUpdated S p p' a u asked) :
    FieldIsTrue S p p' (.updateUser a) (truthy a.fullName) (.account a.userId .fullName) ↔ NameFits p a := by
  have hbefore : (p.db.users.get? a.userId).bind User.fullName = u.fullName := by
    rw [h.found]
    rfl
  have hfield : (u.updated (a.payload asked)).fullName = (a.fullName.map strippedName).getD u.fullName := rfl
  unfold NameFits FieldIsTrue
  rw [hbefore]
  cases hgiven : a.fullName with
  | none =>
    rw [hgiven] at hfield
    have hkept : (Field.account a.userId .fullName).Kept p p' := by
      dsimp only [Field.Kept]
      rw [h.after_self, h.found]
      exact congrArg some hfield
    exact ⟨fun _ => nofun, fun _ => hkept⟩
  | some name =>
    rw [hgiven] at hfield
    by_cases hname : name = ""
    · subst hname
      have hstrip : strip "" = "" := by decide
      have hnone : truthy (some "") = none := by decide
      have hstored : strippedName "" = none := by decide
      have hkept : (Field.account a.userId .fullName).Kept p p' ↔ u.fullName = none := by
        dsimp only [Field.Kept]
        rw [h.after_self, h.found, Option.map_some, Option.map_some, hfield, Option.map_some, Option.getD_some,
          hstored, Option.some.injEq]
        exact eq_comm
      rw [hnone]
      dsimp only
      rw [hkept]
      constructor
      · intro hold name heq
        rw [← Option.some.inj heq]
        exact ⟨hstrip, fun _ => hold⟩
      · intro hfits
        exact (hfits "" rfl).2 rfl
    · have hsome : truthy (some name) = some name := truthy_eq_some.mpr ⟨rfl, hname⟩
      have hasked : truthy a.fullName = some name := by rw [hgiven, hsome]
      have hshows := h.shows_name_iff hasked
      rw [hsome]
      dsimp only
      rw [hshows]
      constructor
      · intro hstrip other heq
        rw [← Option.some.inj heq]
        exact ⟨hstrip, fun hempty => absurd hempty hname⟩
      · intro hfits
        exact (hfits name rfl).1

theorem link_iff (h : AccountUpdated S p p' a u asked) :
    FieldIsTrue S p p' (.updateUser a) none (.account a.userId .personnelId) ↔ LinkFits p a := by
  have hfield : (u.updated (a.payload asked)).personnelId = (a.personnelId.map some).getD u.personnelId := rfl
  unfold FieldIsTrue Field.Kept LinkFits
  dsimp only
  rw [h.after_self, h.found, Option.map_some, Option.map_some, Option.bind_some, Option.some.injEq, hfield]
  cases a.personnelId with
  | none => simp
  | some k => simp [eq_comm]

/-- The role that is asked for is HR where the text names HR. -/
theorem asked_hr (h : AccountUpdated S p p' a u asked) : asked = some .hr ↔ a.role = some UserRole.hr.value := by
  constructor
  · intro hasked
    cases hrole : a.role with
    | none =>
      rw [h.noRole hrole] at hasked
      cases hasked
    | some value =>
      have hread := (h.role value hrole).1
      rw [hasked] at hread
      have hvalue := List.find?_some hread
      rw [decide_eq_true_eq] at hvalue
      rw [hvalue]
  · intro hrole
    rw [← (h.role _ hrole).1]
    decide

theorem entersHr_iff (h : AccountUpdated S p p' a u asked) :
    p.entersHr a.userId (a.payload asked) = true ↔ a.role = some UserRole.hr.value ∧ u.role ≠ .hr := by
  rw [← h.asked_hr]
  unfold Platform.entersHr
  rw [h.found]
  have hpayload : (a.payload asked).role = asked := rfl
  rw [hpayload, Option.any_some, Bool.and_eq_true, decide_eq_true_eq, decide_eq_true_eq]
  exact and_comm

theorem defaults_iff (h : AccountUpdated S p p' a u asked) :
    (∀ c, FieldIsTrue S p p' (.updateUser a) none (.account a.userId (.capability c))) ↔ DefaultsFit p a := by
  unfold DefaultsFit
  rw [h.found]
  by_cases henters : p.entersHr a.userId (a.payload asked) = true
  · obtain ⟨hrole, hnot⟩ := h.entersHr_iff.mp henters
    have hfield : ∀ c, FieldIsTrue S p p' (.updateUser a) none (.account a.userId (.capability c)) ↔
        (hasCapability p a.userId c = true ↔ c ∈ defaultHrCapabilities) := by
      intro c
      show hasCapability p' a.userId c = hasCapability p a.userId c ↔ _
      rw [h.capabilities, if_pos henters, Bool.eq_iff_iff, hasCapability_applyDefault, if_pos rfl]
      exact iff_comm
    constructor
    · intro htrue _ _ c
      exact (hfield c).mp (htrue c)
    · intro hfits c
      refine (hfield c).mpr (hfits hrole ?_ c)
      intro v hv
      rw [← Option.some.inj hv]
      exact hnot
  · have hkept : ∀ c, FieldIsTrue S p p' (.updateUser a) none (.account a.userId (.capability c)) := by
      intro c
      show hasCapability p' a.userId c = hasCapability p a.userId c
      rw [h.capabilities, if_neg henters]
    refine ⟨fun _ hrole hnot => ?_, fun _ => hkept⟩
    exact absurd (h.entersHr_iff.mpr ⟨hrole, hnot u rfl⟩) henters

/-- The role, the status, the password and the login name are always told. -/
theorem told (h : AccountUpdated S p p' a u asked) :
    ∀ f ∈ [AccountField.username, .role, .isActive, .password],
      FieldIsTrue S p p' (.updateUser a) (shownOfAccount a f) (.account a.userId f) := by
  intro f hf
  simp only [List.mem_cons, List.not_mem_nil, or_false] at hf
  rcases hf with rfl | rfl | rfl | rfl
  · show (p'.db.users.get? a.userId).map User.username = (p.db.users.get? a.userId).map User.username
    rw [h.after_self, h.found]
    rfl
  · cases hrole : a.role with
    | none =>
      have hshown : shownOfAccount a .role = none := by simp [shownOfAccount, hrole, truthy]
      rw [hshown]
      show (p'.db.users.get? a.userId).map User.role = (p.db.users.get? a.userId).map User.role
      rw [h.after_self, h.found]
      simp [User.updated, UpdateUserArguments.payload, h.noRole hrole]
    | some value =>
      obtain ⟨hread, hsome⟩ := h.role value hrole
      obtain ⟨role, hasked⟩ := Option.ne_none_iff_exists'.mp hsome
      have hvalue : value ≠ "" := by
        rintro rfl
        have hnone : UserRole.ofValue "" = none := by decide
        rw [hnone] at hread
        exact hsome hread.symm
      have hshown : shownOfAccount a .role = some (roleLabel role) := by
        simp [shownOfAccount, hrole, truthy, hvalue, hread, hasked]
      rw [hshown]
      show roleLabel role = formatValue (optionalStr ((p'.db.users.get? a.userId).map fun u => roleLabel u.role))
      rw [h.after_self]
      have hafter : (u.updated (a.payload asked)).role = role := by
        rw [hasked]
        rfl
      rw [Option.map_some, hafter]
      exact (formatValue_str (roleLabel_ne role)).symm
  · cases hactive : a.isActive with
    | none =>
      have hshown : shownOfAccount a .isActive = none := by simp [shownOfAccount, hactive]
      rw [hshown]
      show (p'.db.users.get? a.userId).map User.isActive = (p.db.users.get? a.userId).map User.isActive
      rw [h.after_self, h.found]
      simp [User.updated, UpdateUserArguments.payload, hactive]
    | some isActive =>
      have hshown : shownOfAccount a .isActive = some (formatValue (.bool isActive)) := by
        simp [shownOfAccount, hactive]
      rw [hshown]
      refine ⟨_, h.after_self, ?_⟩
      have hafter : (u.updated (a.payload asked)).isActive = isActive := by
        simp [User.updated, UpdateUserArguments.payload, hactive]
      rw [hafter]
  · cases hpassword : truthy a.password with
    | none =>
      have hshown : shownOfAccount a .password = none := by simp [shownOfAccount, hpassword]
      rw [hshown]
      exact congrArg Credential.passwordHash ((h.credentials a.userId).trans (credentialAfter_none hpassword))
    | some password =>
      have hshown : shownOfAccount a .password = some "بازنشانی می‌شود" := by simp [shownOfAccount, hpassword]
      rw [hshown]
      refine ⟨rfl, password, hpassword, ?_⟩
      rw [h.credentials, credentialAfter_some hpassword]

/-- Beside the password, a reset changes two columns of which the card says nothing. -/
theorem signing_iff (h : AccountUpdated S p p' a u asked) :
    (FieldIsTrue S p p' (.updateUser a) none (.account a.userId .mustChangePassword) ∧
        FieldIsTrue S p p' (.updateUser a) none (.account a.userId .tokenVersion)) ↔
      truthy a.password = none := by
  cases hpassword : truthy a.password with
  | none =>
    have hkept := (h.credentials a.userId).trans (credentialAfter_none hpassword)
    exact iff_of_true ⟨congrArg Credential.mustChangePassword hkept, congrArg Credential.tokenVersion hkept⟩ rfl
  | some password =>
    refine iff_of_false ?_ (Option.some_ne_none password)
    intro hkept
    have hversion : (p'.credentials a.userId).tokenVersion = (p.credentials a.userId).tokenVersion := hkept.2
    rw [h.credentials, credentialAfter_some hpassword] at hversion
    exact Nat.succ_ne_self _ hversion

end AccountUpdated

theorem rows_updateUser_iff (h : updateUserTool errorText S p env user a = .ok p') :
    RowsAreTrue S p p' (.updateUser a) ↔ ∀ name, truthy a.fullName = some name → strip name = name := by
  obtain ⟨u, asked, hdone⟩ := updateUserTool_ok h
  constructor
  · intro hrows name hname
    refine (hdone.shows_name_iff hname).mp (hrows _ name ?_)
    rw [shown_updateUser]
    exact hname
  · intro hname f text hshown
    by_cases hf : f.subject = .account a.userId
    · cases f with
      | seat k s => cases hf
      | account k f =>
        obtain rfl : k = a.userId := by simpa [Field.subject] using hf
        rw [shown_updateUser] at hshown
        have htold := hdone.told f
        rw [hshown] at htold
        cases f with
        | fullName => exact (hdone.shows_name_iff hshown).mpr (hname text hshown)
        | username => exact htold (by simp)
        | role => exact htold (by simp)
        | isActive => exact htold (by simp)
        | password => exact htold (by simp)
        | personnelId => cases hshown
        | mustChangePassword => cases hshown
        | tokenVersion => cases hshown
        | capability c => cases hshown
    · cases (if_neg hf).symm.trans hshown

theorem card_updateUser_iff (h : updateUserTool errorText S p env user a = .ok p') :
    CardIsTrue S p p' (.updateUser a) ↔
      NameFits p a ∧ LinkFits p a ∧ DefaultsFit p a ∧ truthy a.password = none := by
  obtain ⟨u, asked, hdone⟩ := updateUserTool_ok h
  have hself : ∀ f, FieldIsTrue S p p' (.updateUser a) ((PreviewedCall.updateUser a).shown p (.account a.userId f))
      (.account a.userId f) ↔ FieldIsTrue S p p' (.updateUser a) (shownOfAccount a f) (.account a.userId f) := by
    intro f
    rw [shown_updateUser]
  rw [cardIsTrue_iff hdone.rest]
  constructor
  · intro htrue
    refine ⟨?_, ?_, ?_, ?_⟩
    · exact hdone.name_iff.mp ((hself .fullName).mp (htrue _))
    · exact hdone.link_iff.mp ((hself .personnelId).mp (htrue _))
    · exact hdone.defaults_iff.mp fun c => (hself (.capability c)).mp (htrue _)
    · exact hdone.signing_iff.mp ⟨(hself .mustChangePassword).mp (htrue _), (hself .tokenVersion).mp (htrue _)⟩
  · rintro ⟨hname, hlink, hdefaults, hpassword⟩ f
    by_cases hf : f.subject = .account a.userId
    · cases f with
      | seat k s => cases hf
      | account k f =>
        obtain rfl : k = a.userId := by simpa [Field.subject] using hf
        rw [hself]
        cases f with
        | fullName => exact hdone.name_iff.mpr hname
        | personnelId => exact hdone.link_iff.mpr hlink
        | mustChangePassword => exact (hdone.signing_iff.mpr hpassword).1
        | tokenVersion => exact (hdone.signing_iff.mpr hpassword).2
        | capability c => exact hdone.defaults_iff.mpr hdefaults c
        | username => exact hdone.told _ (by simp)
        | role => exact hdone.told _ (by simp)
        | isActive => exact hdone.told _ (by simp)
        | password => exact hdone.told _ (by simp)
    · have hshown : (PreviewedCall.updateUser a).shown p f = none := if_neg hf
      rw [hshown]
      exact hdone.elsewhere hf

end

/-! ## The card of a chain -/

section

variable {S : Deployment} {p p' : Platform} {env : Env} {user : CurrentUser} {a : EvaluationAccessArguments}

/-- The chain of a person, after a row was written. -/
theorem accessOf_writeAccess (db : Database) (personnelId : Nat) (chain : Chain) (userId k : Nat) :
    ((writeAccess db personnelId chain userId).accessOf k).map EvaluationAccess.chain =
      if k = personnelId then some chain else (db.accessOf k).map EvaluationAccess.chain := by
  unfold writeAccess
  split
  next access hfind =>
    have hmem : access ∈ db.evaluationAccess := List.mem_of_find?_eq_some hfind
    have hperson : access.personnelId = personnelId := by simpa using List.find?_some hfind
    have hput := @Table.find?_put _ _ db.evaluationAccess access
      { access with chain := chain, updatedByUserId := some userId } (fun row => row.personnelId = k) hmem rfl rfl
    unfold Database.accessOf
    rw [hput]
    by_cases hk : k = personnelId
    · rw [if_pos hk, hk, hfind]
      exact congrArg (Option.map EvaluationAccess.chain) (congrArg some (if_pos rfl))
    · rw [if_neg hk]
      cases hother : db.evaluationAccess.rows.find? fun row => row.personnelId = k with
      | none => rfl
      | some other =>
        have hotherk : other.personnelId = k := by simpa using List.find?_some hother
        have hne : ¬HasId.id other = HasId.id access := by
          intro hid
          have heq := Table.eq_of_id_eq (List.mem_of_find?_eq_some hother) hmem hid
          rw [heq, hperson] at hotherk
          exact hk hotherk.symm
        exact congrArg (Option.map EvaluationAccess.chain) (congrArg some (if_neg hne))
  next hnone =>
    unfold Database.accessOf
    show ((db.evaluationAccess.rows ++ [_]).find? _).map _ = _
    rw [List.find?_append]
    by_cases hk : k = personnelId
    · rw [if_pos hk, hk, hnone]
      simp
    · rw [if_neg hk]
      cases db.evaluationAccess.rows.find? fun row => row.personnelId = k with
      | none => simp [Ne.symm hk]
      | some other => rfl

theorem resolveName_empty {username : String} {found : Option Nat} (h : resolveName p username = .ok found)
    (hempty : username = "") : found = none := by
  unfold resolveName at h
  rw [if_pos hempty] at h
  exact (Except.ok.inj h).symm

theorem resolveName_named {username : String} {found : Option Nat} (h : resolveName p username = .ok found)
    (hgiven : username ≠ "") : ∃ u, userNamed p username = some u ∧ found = some u.id := by
  unfold resolveName at h
  rw [if_neg hgiven] at h
  cases hnamed : userNamed p username with
  | none =>
    rw [hnamed] at h
    cases h
  | some u =>
    rw [hnamed] at h
    exact ⟨u, rfl, (Except.ok.inj h).symm⟩

/-- What a carried out `set_evaluation_access` left. -/
structure AccessSet (p p' : Platform) (a : EvaluationAccessArguments) (chain : Chain) : Prop where
  resolved : ∀ s, resolveName p (a.given s) = .ok (chain.seat s)
  chains : ∀ k, (p'.db.accessOf k).map EvaluationAccess.chain =
    if k = a.personnelId then some chain else (p.db.accessOf k).map EvaluationAccess.chain
  users : p'.db.users = p.db.users
  personnel : p'.db.personnel = p.db.personnel
  credentials : p'.credentials = p.credentials
  capabilities : p'.userCapabilities = p.userCapabilities
  rest : RestKept p p'

theorem setEvaluationAccessTool_ok (h : setEvaluationAccessTool p env user a = .ok p') :
    ∃ chain, AccessSet p p' a chain := by
  unfold setEvaluationAccessTool at h
  simp only [bind_eq_ok, pure_eq_ok, refusing_eq_ok, require_eq_ok, upsertAccess] at h
  obtain ⟨_, -, person, hperson, named, hnamed, ceoUserId, hceo, supervisor, hsupervisor, deputy, hdeputy, db,
    ⟨-, -, -, -, -, -, -, -, -, -, -, -, -, -, chain, hchain, rfl⟩, rfl⟩ := h
  obtain ⟨hs, hd, hc⟩ := ensureChainStagesAreNotRedundant_ok hchain
  have hid : person.id = a.personnelId := Table.id_of_get? hperson
  refine ⟨chain, ?_, ?_, ?_, ?_, rfl, rfl, ?_, rfl⟩
  · intro s
    cases s with
    | unitSupervisor =>
      show _ = Except.ok chain.unitSupervisorUserId
      rw [hs]
      exact hsupervisor
    | deputy =>
      show _ = Except.ok chain.deputyUserId
      rw [hd]
      exact hdeputy
    | ceo =>
      show _ = Except.ok (some chain.ceoUserId)
      rw [hc, ← hceo]
      exact hnamed
  · intro k
    rw [← hid]
    exact accessOf_writeAccess p.db person.id chain user.id k
  · show (writeAccess p.db person.id chain user.id).users = p.db.users
    exact writeAccess_users _ _ _
  · show (writeAccess p.db person.id chain user.id).personnel = p.db.personnel
    exact writeAccess_personnel _ _ _
  · show (writeAccess p.db person.id chain user.id).log _ = _
    unfold writeAccess
    split <;> rfl

theorem nameOrDash_ne (db : Database) (userId : Option Nat) : nameOrDash db userId ≠ "" := by
  unfold nameOrDash
  cases hname : truthy (nameOf db userId) with
  | none => decide
  | some name => exact (truthy_eq_some.mp hname).2

/-- A name on a card, as `name_of` would have given it. -/
theorem formatValue_displayName {db : Database} {u : User} (hget : db.users.get? u.id = some u) :
    formatValue (.str (db.displayName u)) = formatValue (.str (nameOrDash db (some u.id))) := by
  have hname : nameOf db (some u.id) = some (db.displayName u) := by
    unfold nameOf
    rw [Option.bind_some, hget]
    rfl
  rw [formatValue_str (nameOrDash_ne db _)]
  unfold nameOrDash
  rw [hname]
  by_cases hempty : db.displayName u = ""
  · rw [hempty]
    rfl
  · rw [formatValue_str hempty, truthy_eq_some.mpr ⟨rfl, hempty⟩]
    rfl

theorem shown_setEvaluationAccess (p : Platform) (a : EvaluationAccessArguments) (s : ChainSeat) :
    (PreviewedCall.setEvaluationAccess a).shown p (.seat a.personnelId s) =
      some (formatValue (.str (proposedName p (a.given s) (seatOf p.db a.personnelId s)))) := by
  have hshown : (PreviewedCall.setEvaluationAccess a).shown p (.seat a.personnelId s) =
      rowFor (previewSetEvaluationAccess p a) (cardSeatLabel s) := if_pos rfl
  have hseats : rowFor (seatOrder.map (seatRow p a)) (cardSeatLabel s) = some (seatRow p a s).after := by
    have hlabel : ∀ s, (seatRow p a s).label = cardSeatLabel s := fun _ => rfl
    unfold seatOrder
    cases s <;> simp [rowFor_cons, hlabel, cardSeatLabel]
  have hheader : "پرسنل" ≠ cardSeatLabel s := by cases s <;> decide
  rw [hshown]
  unfold previewSetEvaluationAccess
  rw [rowFor_cons, if_neg (by simpa [change] using hheader), hseats]
  rfl

namespace AccessSet

variable {chain : Chain}

theorem seatOf_eq (h : AccessSet p p' a chain) (k : Nat) (s : ChainSeat) :
    seatOf p'.db k s = if k = a.personnelId then chain.seat s else seatOf p.db k s := by
  have hseat : ∀ db : Database, seatOf db k s =
      ((db.accessOf k).map EvaluationAccess.chain).bind fun c => c.seat s := by
    intro db
    unfold seatOf
    cases db.accessOf k <;> rfl
  rw [hseat p'.db, hseat p.db, h.chains k]
  split
  next => rfl
  next => rfl

theorem nameOrDash_eq (h : AccessSet p p' a chain) (userId : Option Nat) :
    nameOrDash p'.db userId = nameOrDash p.db userId := by
  unfold nameOrDash nameOf
  have hdisplay : p'.db.displayName = p.db.displayName := by
    funext u
    unfold Database.displayName
    rw [h.personnel]
  rw [h.users, hdisplay]

/-- A seat is as shown exactly where a name is given or nobody sat there. -/
theorem seat_iff (h : AccessSet p p' a chain) (s : ChainSeat) :
    FieldIsTrue S p p' (.setEvaluationAccess a) ((PreviewedCall.setEvaluationAccess a).shown p (.seat a.personnelId s))
        (.seat a.personnelId s) ↔
      (a.given s = "" → nameOrDash p.db (seatOf p.db a.personnelId s) = "—") := by
  rw [shown_setEvaluationAccess]
  show formatValue (.str (proposedName p (a.given s) _)) =
      formatValue (.str (nameOrDash p'.db (seatOf p'.db a.personnelId s))) ↔ _
  rw [h.seatOf_eq, if_pos rfl, h.nameOrDash_eq]
  unfold proposedName
  by_cases hgiven : a.given s = ""
  · rw [if_pos hgiven, resolveName_empty (h.resolved s) hgiven, formatValue_str (nameOrDash_ne _ _),
      formatValue_str (nameOrDash_ne _ _)]
    exact ⟨fun heq _ => heq, fun hdash => hdash hgiven⟩
  · obtain ⟨u, hnamed, hseat⟩ := resolveName_named (h.resolved s) hgiven
    have hmem : u ∈ p.db.users := List.mem_of_find?_eq_some hnamed
    have hget : p.db.users.get? u.id = some u := Table.get?_of_mem hmem
    rw [if_neg hgiven, hnamed, hseat]
    exact ⟨fun _ hempty => absurd hempty hgiven, fun _ => formatValue_displayName hget⟩

theorem elsewhere (h : AccessSet p p' a chain) {f : Field} (hf : f.subject ≠ .person a.personnelId) :
    f.Kept p p' := by
  cases f with
  | seat k s =>
    have hk : k ≠ a.personnelId := by
      intro heq
      rw [heq] at hf
      exact hf rfl
    show seatOf p'.db k s = seatOf p.db k s
    rw [h.seatOf_eq, if_neg hk]
  | account k f =>
    cases f with
    | capability c => exact hasCapability_congr h.capabilities
    | password => exact congrArg (fun credentials => (credentials k).passwordHash) h.credentials
    | mustChangePassword => exact congrArg (fun credentials => (credentials k).mustChangePassword) h.credentials
    | tokenVersion => exact congrArg (fun credentials => (credentials k).tokenVersion) h.credentials
    | username => exact congrArg (fun users => (Table.get? users k).map User.username) h.users
    | fullName => exact congrArg (fun users => (Table.get? users k).map User.fullName) h.users
    | role => exact congrArg (fun users => (Table.get? users k).map User.role) h.users
    | isActive => exact congrArg (fun users => (Table.get? users k).map User.isActive) h.users
    | personnelId => exact congrArg (fun users => (Table.get? users k).map User.personnelId) h.users

end AccessSet

theorem card_setEvaluationAccess_iff (h : setEvaluationAccessTool p env user a = .ok p') :
    CardIsTrue S p p' (.setEvaluationAccess a) ↔ SeatsFit p a := by
  obtain ⟨chain, hdone⟩ := setEvaluationAccessTool_ok h
  rw [cardIsTrue_iff hdone.rest]
  constructor
  · intro htrue s
    exact (hdone.seat_iff s).mp (htrue _)
  · intro hfits f
    by_cases hf : f.subject = .person a.personnelId
    · cases f with
      | account k f => cases hf
      | seat k s =>
        obtain rfl : k = a.personnelId := by simpa [Field.subject] using hf
        exact (hdone.seat_iff s).mpr (hfits s)
    · have hshown : (PreviewedCall.setEvaluationAccess a).shown p f = none := if_neg hf
      rw [hshown]
      exact hdone.elsewhere hf

theorem rows_setEvaluationAccess_iff (h : setEvaluationAccessTool p env user a = .ok p') :
    RowsAreTrue S p p' (.setEvaluationAccess a) ↔ SeatsFit p a := by
  constructor
  · intro hrows s
    obtain ⟨chain, hdone⟩ := setEvaluationAccessTool_ok h
    have hseat := hrows (.seat a.personnelId s) _ (shown_setEvaluationAccess p a s)
    refine (@AccessSet.seat_iff S _ _ _ _ hdone s).mp ?_
    rw [shown_setEvaluationAccess]
    exact hseat
  · intro hfits
    exact ((@card_setEvaluationAccess_iff S _ _ _ _ _ h).mpr hfits).shown

end

/-! ## The card of a grant -/

section

variable {S : Deployment} {p p' : Platform} {env : Env} {user : CurrentUser} {a : GrantArguments}
  {wanted : List Capability}

theorem wantedCapabilities_ok {items : List String} (h : wantedCapabilities items = .ok wanted) :
    items.map grantItem = wanted.map GrantItem.known := by
  induction items generalizing wanted with
  | nil =>
    cases h
    rfl
  | cons item items ih =>
    unfold wantedCapabilities at h
    simp only [bind_eq_ok, pure_eq_ok, require_eq_ok] at h
    obtain ⟨c, hread, rest, hrest, rfl⟩ := h
    have hitem : grantItem item = .known c := by
      unfold grantItem
      rw [hread]
    rw [List.map_cons, List.map_cons, ih hrest, hitem]

/-- What a carried out `grant_capabilities` left. -/
structure CapabilitiesSet (p p' : Platform) (a : GrantArguments) (wanted : List Capability) : Prop where
  items : a.capabilities.map grantItem = wanted.map GrantItem.known
  found : (p.db.users.get? a.userId).isSome = true
  capabilities : ∀ k c, hasCapability p' k c = true ↔
    if k = a.userId then c ∈ wanted else hasCapability p k c = true
  users : p'.db.users = p.db.users
  access : p'.db.evaluationAccess = p.db.evaluationAccess
  credentials : p'.credentials = p.credentials
  rest : RestKept p p'

/-- The account has what is desired; every other account has what it had. -/
theorem hasCapability_replaced (p : Platform) (userId grantedBy k : Nat) (desired : List Capability) (c : Capability) :
    hasCapability
        (grantAll (revokeWhere p fun row => row.userId = userId && !desired.contains row.capability) userId
          (some grantedBy) (desired.dedup.filter fun d => !(capabilitiesOf p userId).contains d)) k c = true ↔
      if k = userId then c ∈ desired else hasCapability p k c = true := by
  rw [hasCapability_grantAll, hasCapability_revokeWhere]
  by_cases hk : k = userId
  · subst hk
    rw [if_pos rfl]
    constructor
    · rintro (⟨row, -, hkept, hrow, hc⟩ | ⟨-, hnew⟩)
      · simpa [hrow, hc] using hkept
      · rw [List.mem_filter, List.mem_dedup] at hnew
        exact hnew.1
    · intro hc
      by_cases hhad : hasCapability p k c = true
      · obtain ⟨row, hrow, huser, hcap⟩ := hasCapability_iff.mp hhad
        exact Or.inl ⟨row, hrow, by simp [hcap, hc], huser, hcap⟩
      · refine Or.inr ⟨rfl, ?_⟩
        rw [List.mem_filter, List.mem_dedup]
        exact ⟨hc, by simpa [mem_capabilitiesOf] using hhad⟩
  · rw [if_neg hk, hasCapability_iff]
    constructor
    · rintro (⟨row, hrow, -, huser, hc⟩ | ⟨heq, -⟩)
      · exact ⟨row, hrow, huser, hc⟩
      · exact absurd heq hk
    · rintro ⟨row, hrow, huser, hc⟩
      exact Or.inl ⟨row, hrow, by simp [huser, hk], huser, hc⟩

theorem grantCapabilitiesTool_ok (h : grantCapabilitiesTool p env user a = .ok p') :
    ∃ wanted, CapabilitiesSet p p' a wanted := by
  unfold grantCapabilitiesTool at h
  simp only [bind_eq_ok, refusing_eq_ok] at h
  obtain ⟨-, -, wanted, hwanted, hanswer⟩ := h
  obtain ⟨⟨reply, hreply⟩, rfl⟩ := answered_ok hanswer
  unfold setCapabilities at hreply ⊢
  cases htarget : capabilityTarget p env user a.userId wanted with
  | error e =>
    rw [htarget] at hreply
    cases hreply
  | ok target =>
    have hfound : (p.db.users.get? a.userId).isSome = true := by
      unfold capabilityTarget at htarget
      simp only [bind_eq_ok, pure_eq_ok, require_eq_ok] at htarget
      obtain ⟨-, -, u, hget, -⟩ := htarget
      rw [hget]
      rfl
    obtain ⟨hdb, hcredentials⟩ := grantAll_users
      (revokeWhere p fun row => row.userId = a.userId && !wanted.contains row.capability) a.userId
      (some user.id) (wanted.dedup.filter fun c => !(capabilitiesOf p a.userId).contains c)
    have hattempts := grantAll_attempts
      (revokeWhere p fun row => row.userId = a.userId && !wanted.contains row.capability) a.userId
      (some user.id) (wanted.dedup.filter fun c => !(capabilitiesOf p a.userId).contains c)
    have hhas := fun k c => hasCapability_replaced p a.userId user.id k wanted c
    dsimp only
    generalize grantAll _ a.userId (some user.id) _ = granted at *
    have husers : granted.db.users = p.db.users := by
      rw [hdb]
      rfl
    have haccess : granted.db.evaluationAccess = p.db.evaluationAccess := by
      rw [hdb]
      rfl
    have hlog : granted.db.log [accountEvent env user.id "capabilities_changed"] =
        { p.db with
          users := granted.db.users
          evaluationAccess := granted.db.evaluationAccess
          auditLog := granted.db.auditLog ++ [accountEvent env user.id "capabilities_changed"] } := by
      rw [hdb]
      rfl
    exact ⟨wanted, wantedCapabilities_ok hwanted, hfound, hhas, husers, haccess, hcredentials, hlog, hattempts⟩

/-! ### The rows of a grant -/

theorem capabilityLabel_inj {c d : Capability} (h : capabilityLabel c = capabilityLabel d) : c = d := by
  have hfind : ∀ c, (Capability.sorted.find? fun d => capabilityLabel d = capabilityLabel c) = some c := by
    intro c
    cases c <;> decide
  have hc := hfind c
  rw [h, hfind d] at hc
  exact (Option.some.inj hc).symm

/-- Rows of one kind, each under a name. -/
theorem rowFor_map {names : List String} {mk : String → PreviewRow} {text label : String}
    (hlabel : ∀ name, (mk name).label = name) (htext : ∀ name, (mk name).after = text) :
    rowFor (names.map mk) label = if label ∈ names then some text else none := by
  induction names with
  | nil => rfl
  | cons name names ih =>
    rw [List.map_cons, rowFor_cons, hlabel, htext, ih]
    by_cases hname : name = label
    · rw [if_pos hname, if_pos (by rw [hname]; exact List.mem_cons_self)]
    · rw [if_neg hname]
      have hiff : label ∈ name :: names ↔ label ∈ names := by
        rw [List.mem_cons]
        exact or_iff_right (Ne.symm hname)
      simp only [hiff]

theorem mem_sortedLabels {items : List GrantItem} {label : String} :
    label ∈ sortedLabels items ↔ ∃ item ∈ items, grantItemLabel item = label := by
  unfold sortedLabels
  rw [List.mem_insertionSort, List.mem_map]

theorem rowFor_previewGrant (p : Platform) (a : GrantArguments) {label : String}
    (hheader : "حساب کاربری" ≠ label) (hnote : "تغییری در مجوزها" ≠ label) :
    rowFor (previewGrant p a) label =
      (if label ∈ sortedLabels (addedItems p a) then some "اضافه می‌شود" else none).or
        (if label ∈ sortedLabels (removedItems p a) then some "حذف می‌شود" else none) := by
  have hadded := @rowFor_map (sortedLabels (addedItems p a))
    (fun name => change name .none (.str "اضافه می‌شود") .add) "اضافه می‌شود" label (fun _ => rfl) (fun _ => rfl)
  have hremoved := @rowFor_map (sortedLabels (removedItems p a))
    (fun name => change name (.str "دارد") (.str "حذف می‌شود") .remove) "حذف می‌شود" label (fun _ => rfl)
    (fun _ => rfl)
  have hlast : rowFor (if addedItems p a = [] ∧ removedItems p a = [] then
      [change "تغییری در مجوزها" .none (.str "ندارد") .info] else []) label = none := by
    split
    next =>
      rw [rowFor_cons, if_neg (by simpa [change] using hnote)]
      rfl
    next => rfl
  unfold previewGrant
  rw [List.cons_append, List.cons_append, rowFor_cons, if_neg (by simpa [change] using hheader), rowFor_append,
    rowFor_append, hadded, hremoved, hlast, Option.or_none]

theorem mem_currentItems (h : (p.db.users.get? a.userId).isSome = true) {item : GrantItem} :
    item ∈ currentItems p a.userId ↔ ∃ c, hasCapability p a.userId c = true ∧ GrantItem.known c = item := by
  unfold currentItems
  rw [if_pos h]
  simp only [List.mem_map, List.mem_dedup, mem_capabilitiesOf]

namespace CapabilitiesSet

theorem mem_addedItems (h : CapabilitiesSet p p' a wanted) {item : GrantItem} :
    item ∈ addedItems p a ↔ ∃ c, (c ∈ wanted ∧ hasCapability p a.userId c = false) ∧ GrantItem.known c = item := by
  unfold addedItems
  rw [List.mem_filter, List.mem_dedup, h.items, decide_eq_true_eq, mem_currentItems h.found, List.mem_map]
  constructor
  · rintro ⟨⟨c, hc, rfl⟩, hnot⟩
    exact ⟨c, ⟨hc, Bool.eq_false_iff.mpr fun hhas => hnot ⟨c, hhas, rfl⟩⟩, rfl⟩
  · rintro ⟨c, ⟨hc, hhas⟩, rfl⟩
    refine ⟨⟨c, hc, rfl⟩, ?_⟩
    rintro ⟨d, hd, heq⟩
    rw [GrantItem.known.inj heq, hhas] at hd
    cases hd

theorem mem_removedItems (h : CapabilitiesSet p p' a wanted) {item : GrantItem} :
    item ∈ removedItems p a ↔ ∃ c, (hasCapability p a.userId c = true ∧ c ∉ wanted) ∧ GrantItem.known c = item := by
  unfold removedItems
  rw [List.mem_filter, h.items, decide_eq_true_eq, mem_currentItems h.found, List.mem_map]
  constructor
  · rintro ⟨⟨c, hhas, rfl⟩, hnot⟩
    exact ⟨c, ⟨hhas, fun hc => hnot ⟨c, hc, rfl⟩⟩, rfl⟩
  · rintro ⟨c, ⟨hhas, hc⟩, rfl⟩
    refine ⟨⟨c, hhas, rfl⟩, ?_⟩
    rintro ⟨d, hd, heq⟩
    rw [GrantItem.known.inj heq] at hd
    exact hc hd

/-- A label among those of some capabilities is the label of one of them. -/
theorem label_mem_iff {items : List GrantItem} {P : Capability → Prop}
    (hitems : ∀ item, item ∈ items ↔ ∃ c, P c ∧ GrantItem.known c = item) (c : Capability) :
    capabilityLabel c ∈ sortedLabels items ↔ P c := by
  rw [mem_sortedLabels]
  constructor
  · rintro ⟨item, hitem, hlabel⟩
    obtain ⟨d, hd, rfl⟩ := (hitems item).mp hitem
    rw [← capabilityLabel_inj hlabel]
    exact hd
  · intro hc
    exact ⟨.known c, (hitems _).mpr ⟨c, hc, rfl⟩, rfl⟩

/-- A label that is no capability's is none of the items'. -/
theorem label_not_mem {items : List GrantItem} {P : Capability → Prop} {label : String}
    (hitems : ∀ item, item ∈ items ↔ ∃ c, P c ∧ GrantItem.known c = item) (hapart : ∀ c, label ≠ capabilityLabel c) :
    label ∉ sortedLabels items := by
  intro hlabel
  obtain ⟨item, hitem, heq⟩ := mem_sortedLabels.mp hlabel
  obtain ⟨c, -, rfl⟩ := (hitems item).mp hitem
  exact hapart c heq.symm

theorem shown_capability (h : CapabilitiesSet p p' a wanted) (c : Capability) :
    FieldIsTrue S p p' (.grantCapabilities a)
      ((PreviewedCall.grantCapabilities a).shown p (.account a.userId (.capability c)))
      (.account a.userId (.capability c)) := by
  have hshown : (PreviewedCall.grantCapabilities a).shown p (.account a.userId (.capability c)) =
      rowFor (previewGrant p a) (capabilityLabel c) := if_pos rfl
  have hapart := capabilityLabel_apart c
  have hafter : hasCapability p' a.userId c = true ↔ c ∈ wanted := by
    rw [h.capabilities, if_pos rfl]
  rw [hshown, rowFor_previewGrant p a (hapart _ (by simp)) (hapart _ (by simp))]
  simp only [label_mem_iff (fun _ => h.mem_addedItems), label_mem_iff (fun _ => h.mem_removedItems)]
  by_cases hc : c ∈ wanted
  · have hhas := hafter.mpr hc
    cases hhad : hasCapability p a.userId c with
    | false =>
      rw [if_pos ⟨hc, rfl⟩]
      exact Or.inl ⟨rfl, hhad, hhas⟩
    | true =>
      rw [if_neg (fun hadded => Bool.noConfusion hadded.2), if_neg (fun hremoved => hremoved.2 hc)]
      exact hhas.trans hhad.symm
  · have hhas : hasCapability p' a.userId c = false := by
      rw [Bool.eq_false_iff]
      exact fun hhas => hc (hafter.mp hhas)
    cases hhad : hasCapability p a.userId c with
    | false =>
      rw [if_neg (fun hadded => hc hadded.1), if_neg (fun hremoved => Bool.noConfusion hremoved.1)]
      exact hhas.trans hhad.symm
    | true =>
      rw [if_neg (fun hadded => hc hadded.1), if_pos ⟨rfl, hc⟩]
      exact Or.inr ⟨rfl, hhad, hhas⟩

/-- Of the account's own fields the card shows nothing. -/
theorem shown_other (h : CapabilitiesSet p p' a wanted) {f : AccountField}
    (hapart : ∀ c, f.label ≠ capabilityLabel c) (hheader : "حساب کاربری" ≠ f.label)
    (hnote : "تغییری در مجوزها" ≠ f.label) :
    (PreviewedCall.grantCapabilities a).shown p (.account a.userId f) = none := by
  have hshown : (PreviewedCall.grantCapabilities a).shown p (.account a.userId f) =
      rowFor (previewGrant p a) f.label := if_pos rfl
  rw [hshown, rowFor_previewGrant p a hheader hnote, if_neg (label_not_mem (fun _ => h.mem_addedItems) hapart),
    if_neg (label_not_mem (fun _ => h.mem_removedItems) hapart)]
  rfl

theorem kept (h : CapabilitiesSet p p' a wanted) {f : Field}
    (hf : ∀ c, f ≠ .account a.userId (.capability c)) : f.Kept p p' := by
  cases f with
  | seat k s =>
    show seatOf p'.db k s = seatOf p.db k s
    unfold seatOf Database.accessOf
    rw [h.access]
  | account k f =>
    cases f with
    | capability c =>
      have hk : k ≠ a.userId := by
        intro heq
        rw [heq] at hf
        exact hf c rfl
      show hasCapability p' k c = hasCapability p k c
      rw [Bool.eq_iff_iff, h.capabilities, if_neg hk]
    | password => exact congrArg (fun credentials => (credentials k).passwordHash) h.credentials
    | mustChangePassword => exact congrArg (fun credentials => (credentials k).mustChangePassword) h.credentials
    | tokenVersion => exact congrArg (fun credentials => (credentials k).tokenVersion) h.credentials
    | username => exact congrArg (fun users => (Table.get? users k).map User.username) h.users
    | fullName => exact congrArg (fun users => (Table.get? users k).map User.fullName) h.users
    | role => exact congrArg (fun users => (Table.get? users k).map User.role) h.users
    | isActive => exact congrArg (fun users => (Table.get? users k).map User.isActive) h.users
    | personnelId => exact congrArg (fun users => (Table.get? users k).map User.personnelId) h.users

end CapabilitiesSet

theorem card_grantCapabilities (h : grantCapabilitiesTool p env user a = .ok p') :
    CardIsTrue S p p' (.grantCapabilities a) := by
  obtain ⟨wanted, hdone⟩ := grantCapabilitiesTool_ok h
  rw [cardIsTrue_iff hdone.rest]
  intro f
  by_cases hcap : ∃ c, f = .account a.userId (.capability c)
  · obtain ⟨c, rfl⟩ := hcap
    exact hdone.shown_capability c
  · have hnot : ∀ c, f ≠ .account a.userId (.capability c) := fun c heq => hcap ⟨c, heq⟩
    have hshown : (PreviewedCall.grantCapabilities a).shown p f = none := by
      by_cases hf : f.subject = .account a.userId
      · cases f with
        | seat k s => cases hf
        | account k f =>
          obtain rfl : k = a.userId := by simpa [Field.subject] using hf
          have hapart := fun c label => capabilityLabel_apart c label
          cases f with
          | capability c => exact absurd rfl (hnot c)
          | username => exact hdone.shown_other (fun c => hapart c _ (by decide)) (by decide) (by decide)
          | fullName => exact hdone.shown_other (fun c => hapart c _ (by decide)) (by decide) (by decide)
          | role => exact hdone.shown_other (fun c => hapart c _ (by decide)) (by decide) (by decide)
          | isActive => exact hdone.shown_other (fun c => hapart c _ (by decide)) (by decide) (by decide)
          | personnelId => exact hdone.shown_other (fun c => hapart c _ (by decide)) (by decide) (by decide)
          | password => exact hdone.shown_other (fun c => hapart c _ (by decide)) (by decide) (by decide)
          | mustChangePassword => exact hdone.shown_other (fun c => hapart c _ (by decide)) (by decide) (by decide)
          | tokenVersion => exact hdone.shown_other (fun c => hapart c _ (by decide)) (by decide) (by decide)
      · exact if_neg hf
    rw [hshown]
    exact hdone.kept hnot

end

/-! ## Every card -/

/-- Of a call that is carried out, the rows are true and the card is true exactly where the arguments fit the state. -/
theorem card_is_true_iff {errorText : String → String} {S : Deployment} {p p' : Platform} {env : Env}
    {user : CurrentUser} {call : PreviewedCall} (h : call.run errorText S p env user = .ok p') :
    (RowsAreTrue S p p' call ↔ call.RowsFit p) ∧ (CardIsTrue S p p' call ↔ call.Fits p) := by
  cases call with
  | updateUser a => exact ⟨rows_updateUser_iff h, card_updateUser_iff h⟩
  | setEvaluationAccess a => exact ⟨rows_setEvaluationAccess_iff h, card_setEvaluationAccess_iff h⟩
  | grantCapabilities a =>
    have hcard : CardIsTrue S p p' (.grantCapabilities a) := card_grantCapabilities h
    exact ⟨iff_of_true hcard.shown trivial, iff_of_true hcard trivial⟩

/-! ### Two calls at the office -/

/-- The three seats of the employee, each by name. -/
def allSeatsNamed : PreviewedCall :=
  .setEvaluationAccess ⟨1, some "supervisor", some "deputy2", some "ceo"⟩

/-- The platform after a call of the account 4. -/
def carriedOut (call : PreviewedCall) : Except ToolFailure Platform :=
  call.run id ordinarySettings officePlatform someDay ⟨4, "hr", .hr, none⟩

theorem allSeatsNamed_fits : allSeatsNamed.Fits officePlatform := by
  intro s hempty
  cases s with
  | unitSupervisor => exact absurd hempty (by decide)
  | deputy => exact absurd hempty (by decide)
  | ceo => exact absurd hempty (by decide)

theorem exists_of_isOk {α ε : Type} {x : Except ε α} (h : x.isOk = true) : ∃ a, x = .ok a := by
  cases x with
  | ok a => exact ⟨a, rfl⟩
  | error e => cases h

theorem allSeatsNamed_card :
    ∃ p', carriedOut allSeatsNamed = .ok p' ∧ CardIsTrue ordinarySettings officePlatform p' allSeatsNamed := by
  obtain ⟨p', h⟩ := exists_of_isOk (x := carriedOut allSeatsNamed) (by decide)
  exact ⟨p', h, (card_is_true_iff h).2.mpr allSeatsNamed_fits⟩

/-- The seat of the supervisor is left blank. The card keeps his name, and the tool empties the seat. -/
def supervisorLeftBlank : PreviewedCall :=
  .setEvaluationAccess ⟨1, some "", some "deputy", some "ceo"⟩

theorem blank_seat_is_emptied :
    ¬∀ (S : Deployment) (p p' : Platform) (env : Env) (user : CurrentUser) (call : PreviewedCall),
      call.run id S p env user = .ok p' → CardIsTrue S p p' call := by
  intro hall
  obtain ⟨p', h⟩ := exists_of_isOk (x := carriedOut supervisorLeftBlank) (by decide)
  have hcard := hall _ _ p' _ _ _ h
  obtain ⟨chain, hdone⟩ := setEvaluationAccessTool_ok h
  have hsupervisor := (hdone.seat_iff .unitSupervisor).mp ((cardIsTrue_iff hdone.rest).mp hcard _)
  exact absurd (hsupervisor (by decide)) (by decide)

end NexaHR
