import NexaHR.Routers.Directory
import NexaHR.Routers.Opening

/-! # The progress of a period

`period_progress` of `api/routers/periods.py`. Five of its numbers come from queries of their own, three over records
and two over people; each query is a list here, and the numbers are the lengths of the lists.
-/

namespace NexaHR

open Foundations

set_option autoImplicit false

namespace Database

variable (db : Database) (periodId : Nat)

end Database

end NexaHR
