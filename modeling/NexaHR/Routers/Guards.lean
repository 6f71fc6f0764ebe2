import NexaHR.Services.Workflow

/-! # Request guards

`api/deps.py`: who stands behind a request, and what an endpoint asks of him before it reads
anything.
-/

namespace NexaHR

open Foundations

set_option autoImplicit false

def User.toCurrent (u : User) : CurrentUser where
  id := u.id
  username := u.username
  role := u.role
  personnelId := u.personnelId

def unauthorized : HTTPException := ⟨401, "توکن نامعتبر یا منقضی‌شده است", none⟩

/-- The caller's own account, which must be active. -/
def getCurrentUser (db : Database) (userId : Nat) : Except HTTPException CurrentUser := do
  let user ← require (db.users.get? userId) unauthorized
  ensure (user.isActive = true) unauthorized
  pure user.toCurrent

/-- The answer to a request whose handler raises an error of another kind. -/
def internalServerError : HTTPException := ⟨500, "Internal Server Error", none⟩

def accessRefusal : HTTPException := ⟨403, "شما اجازه دسترسی به این بخش را ندارید", none⟩

def capabilityRefusal : HTTPException :=
  ⟨403, "برای این کار مجوز لازم را ندارید؛ از مدیر سامانه بخواهید آن را به شما بدهد", none⟩

def requireRoles (user : CurrentUser) (allowedRoles : List UserRole) : Except HTTPException Unit :=
  ensure (user.role ∈ allowedRoles) accessRefusal

def requireChainStage (user : CurrentUser) (stageRole : UserRole) : Except HTTPException Unit :=
  ensure (mayActAt user.role stageRole = true) accessRefusal

def requireCapability (env : Env) (capability : Capability) : Except HTTPException Unit :=
  ensure (capability ∈ env.capabilities) capabilityRefusal

def requireRoleOrCapability (user : CurrentUser) (env : Env) (role : UserRole)
    (capability : Capability) : Except HTTPException Unit :=
  ensure (user.role = role ∨ capability ∈ env.capabilities) capabilityRefusal

def requireOwnPersonnel (user : CurrentUser) : Except HTTPException Unit := do
  ensure (user.role ≠ .support)
    ⟨403, "حساب «پشتیبانی فنی» در زنجیرهٔ ارزیابی نقشی ندارد، پس بخش " ++
      "کارنامه و خودارزیابی شخصی برای آن فعال نیست.", none⟩
  ensure (user.personnelId.isSome = true)
    ⟨403, "حساب شما به پروندهٔ پرسنلی وصل نیست، پس پروندهٔ ارزیابی‌ای هم ندارد. " ++
      "منابع انسانی می‌تواند این اتصال را برقرار کند.", none⟩

def ensureModuleEnabled (env : Env) (m : Module) : Except HTTPException Unit :=
  match env.moduleRefusal m with
  | none => .ok ()
  | some detail => .error ⟨403, detail, none⟩

/-- The account behind an answered request is an active row of the table. -/
theorem getCurrentUser_ok {db : Database} {userId : Nat} {user : CurrentUser}
    (h : getCurrentUser db userId = .ok user) :
    ∃ u, db.users.get? userId = some u ∧ u.isActive = true ∧ user = u.toCurrent := by
  unfold getCurrentUser at h
  simp only [bind_eq_ok, pure_eq_ok, require_eq_ok, ensure_eq_ok] at h
  obtain ⟨u, hu, -, hactive, rfl⟩ := h
  exact ⟨u, hu, hactive, rfl⟩

/-- The account's key is the caller's. -/
theorem getCurrentUser_id {db : Database} {userId : Nat} {user : CurrentUser}
    (h : getCurrentUser db userId = .ok user) : user.id = userId := by
  obtain ⟨u, hu, -, rfl⟩ := getCurrentUser_ok h
  exact Table.id_of_get? hu

end NexaHR
