import NexaHR.Routers.Personnel
import NexaHR.Tools.Evaluations

/-! # The assistant's tool for a new person

`create_personnel` of `services/ai/tools/people.py`. It does not call the endpoint: it strips and cuts the texts
itself and inserts the row.
-/

namespace NexaHR

open Foundations

set_option autoImplicit false

structure CreatePersonnelArguments where
  fullName : String
  personnelCode : String
  jobTitle : String
  orgUnit : String
  contractEndDate : String
  isManager : Bool := false
  contractStartDate : String := ""
  deriving DecidableEq

def createPersonnelSpec : ToolSpec where
  name := "create_personnel"
  risky := true
  capabilities := [.managePersonnel]
  roles := [.hr]

section

variable (errorText : String → String) (calendar : Calendar)

/-- `_parse_date`; what the reading of a date does not catch ends the tool. -/
def parseToolDate (value : String) : Except ToolFailure (Option Nat) :=
  if strip value = "" then .ok none
  else
    match parseFlexibleDate calendar (.text (strip value)) with
    | .ok found => .ok (found.map CellDate.day)
    | .error _ => .error (.crashed (errorText value))

namespace CreatePersonnelArguments

def fields (a : CreatePersonnelArguments) (start stop : Nat) : PersonnelFields where
  personnelCode := strip a.personnelCode
  fullName := firstChars 200 (strip a.fullName)
  jobTitle := firstChars 150 (strip a.jobTitle)
  isManager := a.isManager
  orgUnit := firstChars 150 (strip a.orgUnit)
  contractStartDate := start
  contractEndDate := stop

end CreatePersonnelArguments

/-- `create_personnel` of the tools. -/
def createPersonnelByTool (db : Database) (env : Env) (user : CurrentUser) (a : CreatePersonnelArguments) :
    Except ToolFailure Database := do
  refusing (guardTool createPersonnelSpec user env.capabilities)
  refusing (ensure (db.personnel.rows.all (fun q => q.personnelCode ≠ strip a.personnelCode) = true)
    ⟨400, "این کد پرسنلی از قبل ثبت شده است", none⟩)
  let stop ← parseToolDate errorText calendar a.contractEndDate
  let stop ← refusing (require stop ⟨400, "تاریخ پایان قرارداد خوانده نشد (نمونه: 2026-01-01)", none⟩)
  let start ← parseToolDate errorText calendar a.contractStartDate
  let start := start.getD env.today
  refusing (ensure (start < stop) ⟨400, "«پایان قرارداد» باید بعد از «شروع قرارداد» باشد", none⟩)
  -- only the code is not cut to its column
  ensure ((a.fields start stop).fitColumns = true) (.crashed (errorText a.personnelCode))
  pure ((insertPersonnel db (a.fields start stop) .active).log [directoryEvent env user "personnel_created"])

variable {errorText calendar} {db db' : Database} {env : Env} {user : CurrentUser} {a : CreatePersonnelArguments}

/-- Who may use the tool may use the endpoint. -/
theorem guardTool_createPersonnel {x : Unit} (h : guardTool createPersonnelSpec user env.capabilities = .ok x) :
    user.role = .hr ∨ .managePersonnel ∈ env.capabilities := by
  unfold guardTool isAllowed createPersonnelSpec at h
  rw [ensure_eq_ok] at h
  have hallowed : .managePersonnel ∈ env.capabilities ∨ user.role = .hr := by simpa using h
  exact hallowed.symm

theorem createPersonnelByTool_ok (h : createPersonnelByTool errorText calendar db env user a = .ok db') :
    (user.role = .hr ∨ .managePersonnel ∈ env.capabilities) ∧
      (∀ q ∈ db.personnel, q.personnelCode ≠ strip a.personnelCode) ∧ ∃ start stop, start < stop ∧
        (a.fields start stop).fitColumns = true ∧
          db' = (insertPersonnel db (a.fields start stop) .active).log
            [directoryEvent env user "personnel_created"] := by
  unfold createPersonnelByTool at h
  simp only [bind_eq_ok, pure_eq_ok, refusing_eq_ok, ensure_eq_ok, require_eq_ok, List.all_eq_true,
    decide_eq_true_eq] at h
  obtain ⟨_, hguard, -, hfree, -, -, stop, -, start, -, -, horder, -, hfits, rfl⟩ := h
  exact ⟨guardTool_createPersonnel hguard, hfree, _, _, horder, hfits, rfl⟩

/-- What the tool writes, the endpoint of the directory writes too. -/
theorem createPersonnelByTool_refines (h : createPersonnelByTool errorText calendar db env user a = .ok db') :
    ∃ fields, createPersonnel db env user fields none = .ok db' := by
  obtain ⟨hauth, hfree, start, stop, horder, -, rfl⟩ := createPersonnelByTool_ok h
  refine ⟨a.fields start stop, ?_⟩
  unfold createPersonnel requireRoleOrCapability
  simp only [bind_eq_ok, pure_eq_ok, ensure_eq_ok, List.all_eq_true, decide_eq_true_eq]
  exact ⟨(), hauth, (), horder, (), hfree, (), rfl, rfl⟩

end

end NexaHR
