import NexaHR.Routers.Administration
import NexaHR.Routers.Opening
import NexaHR.Services.Evaluation
import NexaHR.Tools.Cards
import NexaHR.Tools.Evaluations

/-! # The assistant's tools for accounts and chains

Three tools of `services/ai/tools/people.py` that build their own cards: `update_user`, `set_evaluation_access`
and `grant_capabilities`. Each has its arguments, its rows and what it does.

* `UpdateUserArguments`, `EvaluationAccessArguments`, `GrantArguments`: what the model gives.
* `previewUpdateUser`, `previewSetEvaluationAccess`, `previewGrant`: the rows of the cards.
* `updateUserTool`, `setEvaluationAccessTool`, `grantCapabilitiesTool`: the tools.
-/

namespace NexaHR

open Foundations

set_option autoImplicit false

/-! ## Names of values -/

def UserRole.value : UserRole → String
  | .unitSupervisor => "unit_supervisor"
  | .hr => "hr"
  | .deputy => "deputy"
  | .ceo => "ceo"
  | .employee => "employee"
  | .support => "support"

def UserRole.all : List UserRole := [.unitSupervisor, .hr, .deputy, .ceo, .employee, .support]

/-- `UserRole(value)` -/
def UserRole.ofValue (value : String) : Option UserRole := UserRole.all.find? fun role => role.value = value

/-- `_ROLE_LABELS` -/
def roleLabel : UserRole → String
  | .hr => "منابع انسانی"
  | .unitSupervisor => "مسئول واحد"
  | .deputy => "معاونت"
  | .ceo => "مدیرعامل"
  | .employee => "کارمند"
  | .support => "مدیر سامانه"

def Capability.value : Capability → String
  | .manageUsers => "manage_users"
  | .manageCapabilities => "manage_capabilities"
  | .manageScoring => "manage_scoring"
  | .manageIntegrations => "manage_integrations"
  | .viewAuditLog => "view_audit_log"
  | .manageModules => "manage_modules"
  | .viewDiagnostics => "view_diagnostics"
  | .managePersonnel => "manage_personnel"
  | .manageAi => "manage_ai"

/-- `Capability(value)` -/
def Capability.ofValue (value : String) : Option Capability := Capability.sorted.find? fun c => c.value = value

/-- `CAPABILITY_LABELS` -/
def capabilityLabel : Capability → String
  | .manageUsers => "ساخت و ویرایش حساب کاربری"
  | .manageCapabilities => "دادن و گرفتن مجوزها"
  | .viewAuditLog => "خواندن کامل گزارش رویدادها"
  | .manageScoring => "شاخص‌ها و طرح نمره‌دهی"
  | .manageIntegrations => "تنظیمات ایمیل و پیامک"
  | .manageModules => "روشن و خاموش کردن بخش‌ها"
  | .viewDiagnostics => "سلامت سامانه و صف تحویل"
  | .managePersonnel => "ثبت و ویرایش پرسنل و زنجیرهٔ ارزیابی"
  | .manageAi => "تنظیمات دستیار هوشمند"

/-! ## Running a tool -/

/-- The platform that an endpoint leaves, or how it refused. -/
def answered (answer : Answer) : Except ToolFailure Platform :=
  match answer.1 with
  | .ok _ => .ok answer.2
  | .error e => .error (.refused e)

/-- The account as a card names it. -/
def accountName (db : Database) (userId : Nat) : String :=
  match db.users.get? userId with
  | some u => db.displayName u
  | none => "#" ++ toString userId

section

variable (errorText : String → String)

/-! ## Accounts -/

structure UpdateUserArguments where
  userId : Nat
  role : Option String := none
  isActive : Option Bool := none
  password : Option String := none
  fullName : Option String := none
  personnelId : Option Nat := none
  deriving DecidableEq

/-- A text that Python takes as true. -/
def truthy (text : Option String) : Option String := text.filter fun s => s ≠ ""

def updateUserSpec : ToolSpec where
  name := "update_user"
  risky := true
  capabilities := [.manageUsers]

/-- The role as the enumeration reads it; an error of Python's where it does not. -/
def readRole (role : Option String) : Except ToolFailure (Option UserRole) :=
  match role with
  | none => .ok none
  | some value =>
    match UserRole.ofValue value with
    | some role => .ok (some role)
    | none => .error (.crashed (errorText value))

/-- `full_name.strip() or None` -/
def strippedName (name : String) : Option String := truthy (some (strip name))

namespace UpdateUserArguments

/-- Nothing is asked for. -/
def isEmpty (a : UpdateUserArguments) : Bool :=
  a.role.isNone && a.isActive.isNone && (truthy a.password).isNone && a.fullName.isNone && a.personnelId.isNone

def payload (a : UpdateUserArguments) (role : Option UserRole) : UserUpdate where
  role := role
  isActive := a.isActive
  personnelId := a.personnelId.map some
  fullName := a.fullName.map strippedName

/-- What the schema of the endpoint asks of the texts. -/
def fits (a : UpdateUserArguments) : Bool :=
  (truthy a.password).all (fun password => 10 ≤ password.length) &&
    (a.fullName.bind strippedName).all fun name => name.length ≤ 200

end UpdateUserArguments

/-- `update_user` of the tools. -/
def updateUserTool (S : Deployment) (p : Platform) (env : Env) (user : CurrentUser) (a : UpdateUserArguments) :
    Except ToolFailure Platform := do
  refusing (guardTool updateUserSpec user (capabilitiesOf p user.id))
  let role ← readRole errorText a.role
  refusing (ensure (a.isEmpty = false) ⟨400, "تغییری داده نشده است", none⟩)
  -- the schema is made in the tool, so what it refuses is an error of the tool's own
  ensure (a.fits = true) (.crashed (errorText ((truthy a.password).getD "")))
  answered (p.updateUser S env user a.userId (a.payload role) (truthy a.password))

def roleRow (db : Database) (userId : Nat) (role : String) : PreviewRow :=
  change "نقش" (optionalStr ((db.users.get? userId).map fun u => roleLabel u.role))
    (.str (((UserRole.ofValue role).map roleLabel).getD role)) .change

def statusRow (db : Database) (userId : Nat) (isActive : Bool) : PreviewRow :=
  change "وضعیت حساب"
    (match db.users.get? userId with
      | some u => .bool u.isActive
      | none => .none)
    (.bool isActive) (if isActive then .change else .remove)

/-- The rows of what is asked for. -/
def requestedRows (db : Database) (a : UpdateUserArguments) : List PreviewRow :=
  ((truthy a.fullName).map fun name =>
      change "نام و نام خانوادگی" (optionalStr ((db.users.get? a.userId).map db.displayName)) (.str name)
        .change).toList ++
    ((truthy a.role).map fun role => roleRow db a.userId role).toList ++
    (a.isActive.map fun isActive => statusRow db a.userId isActive).toList ++
    ((truthy a.password).map fun _ => change "رمز عبور" .none (.str "بازنشانی می‌شود") .change).toList

/-- `_preview_update_user` -/
def previewUpdateUser (db : Database) (a : UpdateUserArguments) : List PreviewRow :=
  change "حساب کاربری" .none (.str (accountName db a.userId)) .info ::
    (if requestedRows db a = [] then [change "تغییری" .none (.str "درخواست نشده") .info] else requestedRows db a)

/-! ## Chains -/

structure EvaluationAccessArguments where
  personnelId : Nat
  unitSupervisor : Option String := some ""
  deputy : Option String := some ""
  ceo : Option String := some ""
  deriving DecidableEq

/-- The name that is given for a seat, stripped; empty where none is given. -/
def EvaluationAccessArguments.given (a : EvaluationAccessArguments) : ChainSeat → String
  | .unitSupervisor => strip (a.unitSupervisor.getD "")
  | .deputy => strip (a.deputy.getD "")
  | .ceo => strip (a.ceo.getD "")

def setEvaluationAccessSpec : ToolSpec where
  name := "set_evaluation_access"
  risky := true
  capabilities := [.managePersonnel]
  roles := [.hr]

/-- `resolve`: the key of a login name, nothing for no name. -/
def resolveName (p : Platform) (username : String) : Except HTTPException (Option Nat) :=
  if username = "" then .ok none
  else
    match userNamed p username with
    | some u => .ok (some u.id)
    | none => .error ⟨400, "کاربری با نام کاربری «" ++ username ++ "» پیدا نشد", none⟩

/-- `set_evaluation_access` -/
def setEvaluationAccessTool (p : Platform) (env : Env) (user : CurrentUser) (a : EvaluationAccessArguments) :
    Except ToolFailure Platform := do
  refusing (guardTool setEvaluationAccessSpec user (capabilitiesOf p user.id))
  let person ← refusing (require (p.db.personnel.get? a.personnelId) ⟨404, "پرسنلی با این شناسه پیدا نشد", none⟩)
  let named ← refusing (resolveName p (a.given .ceo))
  let ceoUserId ← refusing (require named ⟨400, "مدیرعاملِ زنجیره الزامی است", none⟩)
  let unitSupervisorUserId ← refusing (resolveName p (a.given .unitSupervisor))
  let deputyUserId ← refusing (resolveName p (a.given .deputy))
  let db ← refusing
    (upsertAccess p.db (callerEnv p env user) user person.id ⟨unitSupervisorUserId, deputyUserId, ceoUserId⟩)
  pure { p with db := db }

/-- `name_of` -/
def nameOf (db : Database) (userId : Option Nat) : Option String :=
  (userId.bind db.users.get?).map db.displayName

/-- `name_of(…) or "—"` -/
def nameOrDash (db : Database) (userId : Option Nat) : String := (truthy (nameOf db userId)).getD "—"

def seatOf (db : Database) (personnelId : Nat) (seat : ChainSeat) : Option Nat :=
  (db.accessOf personnelId).bind fun access => access.chain.seat seat

/-- `proposed`: no name is shown as what there is now. -/
def proposedName (p : Platform) (given : String) (current : Option Nat) : String :=
  if given = "" then nameOrDash p.db current
  else ((userNamed p given).map p.db.displayName).getD given

/-- The labels of the seats on the card. -/
def cardSeatLabel : ChainSeat → String
  | .unitSupervisor => "مسئول مستقیم"
  | .deputy => "معاونت"
  | .ceo => "مدیرعامل"

def seatRow (p : Platform) (a : EvaluationAccessArguments) (seat : ChainSeat) : PreviewRow :=
  let current := seatOf p.db a.personnelId seat
  let before := nameOrDash p.db current
  let after := proposedName p (a.given seat) current
  change (cardSeatLabel seat) (.str before) (.str after) (if before ≠ after then .change else .info)

/-- `_preview_set_evaluation_access` -/
def previewSetEvaluationAccess (p : Platform) (a : EvaluationAccessArguments) : List PreviewRow :=
  change "پرسنل" .none
      (.str (((p.db.personnel.get? a.personnelId).map Personnel.fullName).getD ("#" ++ toString a.personnelId)))
      .info ::
    seatOrder.map (seatRow p a)

/-! ## Capabilities -/

structure GrantArguments where
  userId : Nat
  capabilities : List String
  deriving DecidableEq

def grantCapabilitiesSpec : ToolSpec where
  name := "grant_capabilities"
  risky := true
  capabilities := [.manageCapabilities]

/-- The wanted capabilities; an unknown one ends the tool. -/
def wantedCapabilities : List String → Except HTTPException (List Capability)
  | [] => .ok []
  | item :: items => do
    let capability ← require (Capability.ofValue (strip item)) ⟨400, "مجوز شناخته‌نشده: " ++ item, none⟩
    let rest ← wantedCapabilities items
    pure (capability :: rest)

/-- `grant_capabilities` -/
def grantCapabilitiesTool (p : Platform) (env : Env) (user : CurrentUser) (a : GrantArguments) :
    Except ToolFailure Platform := do
  refusing (guardTool grantCapabilitiesSpec user (capabilitiesOf p user.id))
  let wanted ← refusing (wantedCapabilities a.capabilities)
  answered (setCapabilities p env user a.userId wanted)

/-- What a row of the card is about: a capability, or a text that names none. -/
inductive GrantItem
  | known (c : Capability)
  | unknown (text : String)
  deriving DecidableEq

def grantItem (item : String) : GrantItem :=
  match Capability.ofValue (strip item) with
  | some c => .known c
  | none => .unknown item

def grantItemLabel : GrantItem → String
  | .known c => capabilityLabel c
  | .unknown text => text

def sortedLabels (items : List GrantItem) : List String :=
  (items.map grantItemLabel).insertionSort fun s t => s ≤ t

/-- The capabilities that the account has, as the card reads them. -/
def currentItems (p : Platform) (userId : Nat) : List GrantItem :=
  if (p.db.users.get? userId).isSome then (capabilitiesOf p userId).dedup.map GrantItem.known else []

def addedItems (p : Platform) (a : GrantArguments) : List GrantItem :=
  (a.capabilities.map grantItem).dedup.filter fun item => decide (item ∉ currentItems p a.userId)

def removedItems (p : Platform) (a : GrantArguments) : List GrantItem :=
  (currentItems p a.userId).filter fun item => decide (item ∉ a.capabilities.map grantItem)

/-- `_preview_grant` -/
def previewGrant (p : Platform) (a : GrantArguments) : List PreviewRow :=
  change "حساب کاربری" .none (.str (accountName p.db a.userId)) .info ::
    ((sortedLabels (addedItems p a)).map fun name => change name .none (.str "اضافه می‌شود") .add) ++
    ((sortedLabels (removedItems p a)).map fun name =>
      change name (.str "دارد") (.str "حذف می‌شود") .remove) ++
    (if addedItems p a = [] ∧ removedItems p a = [] then
      [change "تغییری در مجوزها" .none (.str "ندارد") .info] else [])

end

end NexaHR
