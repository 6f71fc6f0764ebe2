import NexaHR.Routers.Directory
import NexaHR.Routers.Opening
import NexaHR.Services.Authorization

/-! # Which persons a user sees

Four answers to one question: the list and the detail page (`api/routers/personnel.py`), the assistant's
search (`services/ai/tools/people.py`) and the people in the assistant's prompt (`services/ai/context.py`).
What a request filters by, the order and the page are its own: `filters` is the first, and the others are left
out.

* `canViewPersonnel`: the check of the detail page, which the charts of a person use as well.
* `listPersonnel`, `getPersonnel`: the two endpoints.
* `toolVisibleIds`, `contextVisibleIds`: the assistant's two sets; `none` stands for everybody.
-/

namespace NexaHR

open Foundations

set_option autoImplicit false

/-- `_ACCESS_COLUMN_BY_ROLE`. -/
def accessColumnByRole : UserRole → Option ChainSeat
  | .unitSupervisor => some .unitSupervisor
  | .deputy => some .deputy
  | .ceo => some .ceo
  | .hr | .employee | .support => none

/-! ## The pages -/

/-- `_can_view_personnel`. -/
def canViewPersonnel (db : Database) (env : Env) (personnelId : Nat) (user : CurrentUser) : Bool :=
  seesAllPersonnel user.role env.capabilities ||
    (db.accessOf personnelId).any (fun access => access.chain.occupants.contains user.id) ||
    db.evaluationRecords.rows.any fun r =>
      r.subjectPersonnelId = personnelId && r.chain.occupants.contains user.id

/-- The query of `list_personnel`. -/
def listPersonnel (db : Database) (env : Env) (user : CurrentUser) (accessibleToMe : Bool)
    (filters : Personnel → Bool) : List Personnel :=
  if accessibleToMe || !seesAllPersonnel user.role env.capabilities then
    match accessColumnByRole user.role with
    | none => []
    | some column =>
      db.personnel.rows.filter fun person =>
        (db.evaluationAccess.rows.any fun access =>
          access.personnelId = person.id && access.chain.seat column = some user.id) && filters person
  else db.personnel.rows.filter filters

def personnelForbidden : HTTPException := ⟨403, "شما به این پرسنل دسترسی ندارید", none⟩

def getPersonnel (db : Database) (env : Env) (user : CurrentUser) (personnelId : Nat) :
    Except HTTPException Personnel := do
  let personnel ← require (db.personnel.get? personnelId) personnelNotFound
  ensure (canViewPersonnel db env personnelId user = true) personnelForbidden
  pure personnel

/-! ## The assistant -/

/-- The persons in whose access row the user has a seat. -/
def accessIds (db : Database) (user : CurrentUser) : List Nat :=
  (db.evaluationAccess.rows.filter fun access => access.chain.occupants.contains user.id).map
    EvaluationAccess.personnelId

/-- The persons about whom there is a record where the user has a seat. -/
def recordIds (db : Database) (user : CurrentUser) : List Nat :=
  (db.evaluationRecords.rows.filter fun r => r.chain.occupants.contains user.id).map
    EvaluationRecord.subjectPersonnelId

/-- The linked person; zero counts as none. -/
def ownId (user : CurrentUser) : List Nat := (user.personnelId.filter (· ≠ 0)).toList

/-- `_visible_personnel_ids` of the tools. -/
def toolVisibleIds (db : Database) (user : CurrentUser) (caps : List Capability) : Option (List Nat) :=
  if seesAllPersonnel user.role caps then none
  else some (accessIds db user ++ recordIds db user ++ ownId user)

/-- The query of `search_personnel`. -/
def searchPersonnel (db : Database) (env : Env) (user : CurrentUser) (filters : Personnel → Bool) :
    List Personnel :=
  match toolVisibleIds db user env.capabilities with
  | none => db.personnel.rows.filter filters
  | some visible =>
    let ids := if visible.isEmpty then [0] else visible
    db.personnel.rows.filter fun person => ids.contains person.id && filters person

/-- `_visible_personnel_ids` of the prompt. -/
def contextVisibleIds (db : Database) (user : CurrentUser) (caps : List Capability) : Option (List Nat) :=
  if seesAllPersonnel user.role caps then none else some (accessIds db user ++ ownId user)

/-- The persons that `build` may write into the prompt. -/
def contextPersonnel (db : Database) (env : Env) (user : CurrentUser) : List Personnel :=
  match contextVisibleIds db user env.capabilities with
  | none => db.personnel.rows
  | some visible => db.personnel.rows.filter fun person => visible.contains person.id

end NexaHR
