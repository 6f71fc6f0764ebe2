import NexaHR.Models.Database

/-! # The submission window

`services/evaluation_window.py`: until when a record may be submitted.
-/

namespace NexaHR

open Foundations

set_option autoImplicit false

/-- The last day of a record's window; without one the window is unlimited. -/
structure Window where
  closesOn : Option Nat
  extended : Bool
  deriving DecidableEq

namespace Window

def unlimited (w : Window) : Bool := w.closesOn.isNone

def isOpen (w : Window) (today : Nat) : Bool := w.closesOn.all (today ≤ ·)

end Window

/-- The end of the record's period, or of a later extension. -/
def windowFor (db : Database) (r : EvaluationRecord) : Window :=
  match (r.periodId.bind db.evaluationPeriods.get?).map EvaluationPeriod.endsOn with
  | none => ⟨none, false⟩
  | some periodEnd =>
    match r.submissionExtendedUntil with
    | some extension => if periodEnd < extension then ⟨some extension, true⟩ else ⟨some periodEnd, false⟩
    | none => ⟨some periodEnd, false⟩

def ensureSubmissionWindowOpen (db : Database) (env : Env) (r : EvaluationRecord)
    (activity : String) : Except HTTPException Unit :=
  let window := windowFor db r
  ensure (window.isOpen env.today = true)
    ⟨400, "مهلت " ++ activity ++ " این دوره در " ++ (window.closesOn.map env.faDate).getD "—" ++
      " به پایان رسیده است. " ++
      "برای ثبتِ دیرهنگام، منابع انسانی می‌تواند مهلت این پرونده را تمدید کند.", none⟩

end NexaHR
