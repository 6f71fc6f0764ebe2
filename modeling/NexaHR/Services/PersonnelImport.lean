import NexaHR.Core.Dates
import NexaHR.Routers.Directory

/-! # The import of a workbook

`services/personnel_import.py`: a sheet is read row by row into a report, and the rows without errors are
written together. The reading itself writes nothing.

* `Cell`, `cellText`, `parseFlexibleDate`, `parseBool`, `parseStatus`: what a cell says.
* `resolveChain`: the users that the names of a row stand for.
* `readRow`, `parseRow`, `parseWorkbook`: the report, with the errors of every row.
* `commitImport`: the rows that are written.

The calendar of Iran is that of a library, `Calendar`.
-/

namespace NexaHR

open Foundations

set_option autoImplicit false

/-! ## Cells -/

/-- The value of a cell, with what `str` shows of a value that is no text. -/
inductive Cell
  | empty
  | text (value : String)
  | date (day : Nat) (shown : String)
  | moment (day second : Nat) (shown : String)
  | other (shown : String)
  deriving DecidableEq

/-- `_INVISIBLE` -/
def invisible : List Nat :=
  [0x200b, 0x200d, 0xfeff, 0x200e, 0x200f, 0x202a, 0x202b, 0x202c, 0x202d, 0x202e, 0x00ad]

def isInvisible (c : Char) : Bool := c.toNat ∈ invisible

def plainBlank (c : Char) : Char := if c.toNat = 0x00a0 then ' ' else c

def cleanText (value : String) : String :=
  strip (String.ofList ((value.toList.filter fun c => !isInvisible c).map plainBlank))

/-- `_text` -/
def cellText : Cell → String
  | .empty => ""
  | .text value => cleanText value
  | .date _ shown | .moment _ _ shown | .other shown => strip shown

/-- `_DIGITS` -/
def asciiDigit (c : Char) : Char :=
  if 0x6f0 ≤ c.toNat ∧ c.toNat ≤ 0x6f9 then Char.ofNat (c.toNat - 0x6f0 + 0x30)
  else if 0x660 ≤ c.toNat ∧ c.toNat ≤ 0x669 then Char.ofNat (c.toNat - 0x660 + 0x30)
  else c

def normaliseDigits (value : String) : String := String.ofList (value.toList.map asciiDigit)

/-! ## Dates -/

/-- The calendar of the library `jdatetime`: the date of a year, a month and a day, and back. -/
structure Calendar where
  toGregorian : Nat → Nat → Nat → Option Nat
  fromGregorian : Nat → Option (Nat × Nat × Nat)

/-- A date, or a moment where Excel has made the cell one. -/
inductive CellDate
  | date (day : Nat)
  | moment (day second : Nat)
  deriving DecidableEq

namespace CellDate

/-- What the column keeps. -/
def day : CellDate → Nat
  | date day | moment day _ => day

def second : CellDate → Nat
  | date _ => 0
  | moment _ second => second

/-- `a <= b`, which Python refuses between a date and a moment. -/
def le? : CellDate → CellDate → Option Bool
  | date a, date b => some (a ≤ b)
  | moment a s, moment b t => some (a < b || (a = b && s ≤ t))
  | _, _ => none

end CellDate

def jalaliMaxYear : Nat := 1500

def asSlash (c : Char) : Char := if c = '-' ∨ c = '.' then '/' else c

def dateParts (value : String) : List String :=
  (((value.toList.map asSlash).splitOn '/').map String.ofList).filter (· ≠ "")

/-- The date of three numbers. `date` raises an error of another kind on a number beyond an `int` of C. -/
def dateOfParts (calendar : Calendar) (year month day : Nat) : Except HTTPException (Option Nat) :=
  if year ≤ jalaliMaxYear then .ok (calendar.toGregorian year month day)
  else if 2 ^ 31 ≤ year ∨ 2 ^ 31 ≤ month ∨ 2 ^ 31 ≤ day then .error internalServerError
  else .ok (gregorianDate year month day)

/-- The year tells the calendar. -/
def dateOfText (calendar : Calendar) (value : String) : Except HTTPException (Option Nat) :=
  match (dateParts (normaliseDigits value)).map pythonInt with
  | [some year, some month, some day] => dateOfParts calendar year month day
  | _ => .ok none

def parseFlexibleDate (calendar : Calendar) (raw : Cell) : Except HTTPException (Option CellDate) :=
  if cellText raw = "" then .ok none
  else
    match raw with
    | .date day _ => .ok (some (.date day))
    | .moment day second _ => .ok (some (.moment day second))
    | _ => (dateOfText calendar (cellText raw)).map fun day => day.map CellDate.date

/-! ## Words -/

def trueWords : List String := ["بله", "بلی", "آری", "true", "yes", "1", "y"]

def falseWords : List String := ["خیر", "نه", "false", "no", "0", "n", ""]

def activeWords : List String := ["فعال", "active", "1", ""]

def inactiveWords : List String := ["غیرفعال", "غیر فعال", "inactive", "0"]

def wordOf (raw : Cell) : String := (normaliseDigits (cellText raw)).toLower

def parseBool (raw : Cell) : Option Bool :=
  if wordOf raw ∈ trueWords then some true
  else if wordOf raw ∈ falseWords then some false
  else none

def parseStatus (raw : Cell) : Option PersonnelStatus :=
  if wordOf raw ∈ activeWords then some .active
  else if wordOf raw ∈ inactiveWords then some .inactive
  else none

/-- `_USERNAME_RE` -/
def isUsername (username : String) : Bool :=
  3 ≤ username.length && username.length ≤ 50 &&
    username.toList.all fun c => c.isAlphanum || c = '.' || c = '_' || c = '-'

/-! ## Columns -/

/-- `REQUIRED_COLUMNS` -/
def requiredColumns : List String :=
  ["کد پرسنلی", "نام و نام خانوادگی", "عنوان شغلی", "واحد سازمانی", "شروع قرارداد", "پایان قرارداد"]

/-- `CHAIN_COLUMNS` -/
def chainColumn : ChainSeat → String
  | .unitSupervisor => "مسئول مستقیم"
  | .deputy => "معاونت مربوطه"
  | .ceo => "مدیرعامل"

/-- `_ABSENT_WORDS` -/
def absentWords : List String := ["", "-", "—", "ندارد", "نامشخص"]

/-- The place of a column; of two with one name the last counts. -/
def position (header : List String) (column : String) : Option Nat :=
  ((header.zipIdx.filter fun named => named.1 = column).getLast?).map Prod.snd

def cellAt (header : List String) (row : List Cell) (column : String) : Cell :=
  match position header column with
  | none => .empty
  | some i => row.getD i .empty

/-! ## The chain of a row -/

/-- `_evaluator_index`: the active users of a name. -/
def namesakes (db : Database) (written : String) : List User :=
  db.users.rows.filter fun u => u.isActive && (u.fullName.filter (· ≠ "")).map strip = some written

/-- The users that a written name may mean: those of that name, or else of that login name. -/
def matchingUsers (db : Database) (written : String) : List User :=
  if namesakes db written = [] then
    db.users.rows.filter fun u => u.isActive && u.username = written
  else namesakes db written

/-- The chief executive, where exactly one active user with a name has that role. -/
def soleCeo (db : Database) : Option Nat :=
  match db.users.rows.filter fun u => u.isActive && (u.fullName.filter (· ≠ "")).isSome && u.role = .ceo with
  | [u] => some u.id
  | _ => none

/-- The user behind a written name, or what is wrong with it. -/
def resolveSeat (db : Database) (fullName written : String) (seat : ChainSeat) : Except String (Option Nat) :=
  if written ∈ absentWords then .ok none
  else if written = fullName then
    .error ("«" ++ chainColumn seat ++ "»: یک نفر نمی‌تواند ارزیابِ خودش باشد")
  else
    match matchingUsers db written with
    | [] =>
      .error ("«" ++ chainColumn seat ++ "»: کاربری با نام «" ++ written ++
        "» پیدا نشد؛ اول حسابش را بسازید")
    | [u] =>
      if mayActAt u.role (seatRole seat) then .ok (some u.id)
      else .error ("«" ++ chainColumn seat ++ "»: «" ++ written ++ "» نمی‌تواند در این مرحله قرار بگیرد")
    | _ =>
      .error ("«" ++ chainColumn seat ++ "»: بیش از یک کاربر با نام «" ++ written ++
        "» هست؛ به‌جای نام، نام کاربری را بنویسید")

/-- The chain of a row, with its errors. -/
structure ResolvedChain where
  unitSupervisorUserId : Option Nat
  deputyUserId : Option Nat
  ceoUserId : Option Nat
  errors : List String
  deriving DecidableEq

def foundUser (resolved : Except String (Option Nat)) : Option Nat :=
  match resolved with
  | .ok userId => userId
  | .error _ => none

def seatError (resolved : Except String (Option Nat)) : List String :=
  match resolved with
  | .ok _ => []
  | .error message => [message]

/-- The seats that say one thing twice; the first pair is reported. -/
def redundancyError (unitSupervisorUserId deputyUserId ceoUserId : Option Nat) : List String :=
  if unitSupervisorUserId.isSome ∧ unitSupervisorUserId = deputyUserId then
    ["«مسئول مستقیم» و «معاونت مربوطه» یک نفرند؛ اگر این فرد مستقیماً توسط " ++
      "معاونت ارزیابی می‌شود، «مسئول مستقیم» را خالی بگذارید"]
  else if deputyUserId.isSome ∧ deputyUserId = ceoUserId then
    ["«معاونت مربوطه» و «مدیرعامل» یک نفرند؛ اگر معاونتی بالای سر این فرد " ++
      "نیست، «معاونت مربوطه» را خالی بگذارید"]
  else []

/-- `_resolve_chain`. The sole chief executive stands for an empty cell, and a manager has no supervisor. -/
def resolveChain (db : Database) (fullName : String) (isManager : Bool) (written : ChainSeat → String) :
    ResolvedChain :=
  let resolved := fun seat => resolveSeat db fullName (written seat) seat
  let unitSupervisorUserId := if isManager then none else foundUser (resolved .unitSupervisor)
  let deputyUserId := foundUser (resolved .deputy)
  let ceoUserId := (foundUser (resolved .ceo)).or (soleCeo db)
  { unitSupervisorUserId := unitSupervisorUserId
    deputyUserId := deputyUserId
    ceoUserId := ceoUserId
    errors := seatError (resolved .unitSupervisor) ++ seatError (resolved .deputy) ++ seatError (resolved .ceo) ++
      redundancyError unitSupervisorUserId deputyUserId ceoUserId }

/-! ## Rows -/

/-- A row of the file, with whatever is wrong with it. -/
structure CheckedRow where
  rowNumber : Nat
  personnelCode : String
  fullName : String
  jobTitle : String
  orgUnit : String
  isManager : Bool
  status : PersonnelStatus
  contractStartDate : Option CellDate
  contractEndDate : Option CellDate
  username : Option String
  initialPassword : Option String
  unitSupervisorUserId : Option Nat
  deputyUserId : Option Nat
  ceoUserId : Option Nat
  errors : List String
  deriving DecidableEq

/-- `ImportRow.ok` -/
def CheckedRow.isOk (row : CheckedRow) : Bool := row.errors = []

/-- The codes and login names of the rows above, with the numbers of their rows. -/
structure Seen where
  codes : List (String × Nat)
  usernames : List (String × Nat)
  deriving DecidableEq

def blankError (label value : String) : List String := if value = "" then ["«" ++ label ++ "» خالی است"] else []

def codeErrors (db : Database) (seen : Seen) (code : String) : List String :=
  if code = "" then []
  else if db.personnel.rows.any fun person => person.personnelCode = code then
    ["کد پرسنلی از قبل در سامانه ثبت شده است"]
  else
    match seen.codes.lookup code with
    | some number => ["کد پرسنلی تکراری است (ردیف " ++ toString number ++ " همین فایل)"]
    | none => []

def usernameErrors (db : Database) (seen : Seen) (username : String) : List String :=
  if username = "" then []
  else if isUsername username = false then
    ["نام کاربری فقط می‌تواند حروف انگلیسی، رقم، نقطه، خط تیره و زیرخط داشته باشد (۳ تا ۵۰ نویسه)"]
  else if db.users.rows.any fun u => u.username = username then ["این نام کاربری از قبل وجود دارد"]
  else
    match seen.usernames.lookup username with
    | some number => ["نام کاربری تکراری است (ردیف " ++ toString number ++ " همین فایل)"]
    | none => []

def passwordErrors (username password : String) : List String :=
  if password = "" then []
  else if username = "" then ["«رمز اولیه» بدون «نام کاربری» معنا ندارد"]
  else if password.length < 10 then ["«رمز اولیه» باید دست‌کم " ++ toString 10 ++ " نویسه باشد"]
  else []

/-- A date against a moment is an error of another kind. -/
def orderErrors (start stop : Option CellDate) : Except HTTPException (List String) :=
  match start, stop with
  | some start, some stop =>
    match stop.le? start with
    | none => .error internalServerError
    | some true => .ok ["«پایان قرارداد» باید بعد از «شروع قرارداد» باشد"]
    | some false => .ok []
  | _, _ => .ok []

/-- What a field of a row takes where its cell was accepted. -/
def acceptedText (errors : List String) (value : String) : Option String :=
  if errors = [] ∧ value ≠ "" then some value else none

def noteText (errors : List String) (value : String) (number : Nat) (above : List (String × Nat)) :
    List (String × Nat) :=
  if errors = [] ∧ value ≠ "" then (value, number) :: above else above

/-- What the cells of a row say. -/
structure RowValues where
  personnelCode : String
  fullName : String
  jobTitle : String
  orgUnit : String
  isManager : Option Bool
  status : Option PersonnelStatus
  contractStartDate : Option CellDate
  contractEndDate : Option CellDate
  username : String
  password : String
  written : ChainSeat → String

def readRow (calendar : Calendar) (header : List String) (raw : List Cell) : Except HTTPException RowValues := do
  let start ← parseFlexibleDate calendar (cellAt header raw "شروع قرارداد")
  let stop ← parseFlexibleDate calendar (cellAt header raw "پایان قرارداد")
  pure
    { personnelCode := normaliseDigits (cellText (cellAt header raw "کد پرسنلی"))
      fullName := cellText (cellAt header raw "نام و نام خانوادگی")
      jobTitle := cellText (cellAt header raw "عنوان شغلی")
      orgUnit := joinSite (some (cellText (cellAt header raw "محل"))) (cellText (cellAt header raw "واحد سازمانی"))
      isManager := parseBool (cellAt header raw "مدیر")
      status := parseStatus (cellAt header raw "وضعیت")
      contractStartDate := start
      contractEndDate := stop
      username := cellText (cellAt header raw "نام کاربری")
      password := cellText (cellAt header raw "رمز اولیه")
      written := fun seat => cellText (cellAt header raw (chainColumn seat)) }

namespace RowValues

def chain (db : Database) (v : RowValues) : ResolvedChain :=
  resolveChain db v.fullName (v.isManager.getD false) v.written

/-- The errors of the values, in the order of the report; `disorder` is that of the dates. -/
def errors (db : Database) (seen : Seen) (disorder : List String) (v : RowValues) : List String :=
  blankError "کد پرسنلی" v.personnelCode ++ blankError "نام و نام خانوادگی" v.fullName ++
    blankError "عنوان شغلی" v.jobTitle ++ blankError "واحد سازمانی" v.orgUnit ++
    codeErrors db seen v.personnelCode ++
    (if v.isManager = none then ["ستون «مدیر» باید «بله» یا «خیر» باشد"] else []) ++
    (if v.status = none then ["ستون «وضعیت» باید «فعال» یا «غیرفعال» باشد"] else []) ++
    (if v.contractStartDate = none then ["«شروع قرارداد» خوانده نشد (نمونهٔ درست: ۱۴۰۵/۰۱/۰۱)"] else []) ++
    (if v.contractEndDate = none then ["«پایان قرارداد» خوانده نشد (نمونهٔ درست: ۱۴۰۶/۰۱/۰۱)"] else []) ++
    disorder ++ usernameErrors db seen v.username ++ passwordErrors v.username v.password ++ (v.chain db).errors

/-- The row of the report. -/
def checked (db : Database) (seen : Seen) (number : Nat) (disorder : List String) (v : RowValues) : CheckedRow where
  rowNumber := number
  personnelCode := v.personnelCode
  fullName := v.fullName
  jobTitle := v.jobTitle
  orgUnit := v.orgUnit
  isManager := v.isManager.getD false
  status := v.status.getD .active
  contractStartDate := v.contractStartDate
  contractEndDate := v.contractEndDate
  username := acceptedText (usernameErrors db seen v.username) v.username
  initialPassword := acceptedText (passwordErrors v.username v.password) v.password
  unitSupervisorUserId := (v.chain db).unitSupervisorUserId
  deputyUserId := (v.chain db).deputyUserId
  ceoUserId := (v.chain db).ceoUserId
  errors := v.errors db seen disorder

/-- What the rows below must not repeat. -/
def noted (db : Database) (seen : Seen) (number : Nat) (v : RowValues) : Seen where
  codes := noteText (codeErrors db seen v.personnelCode) v.personnelCode number seen.codes
  usernames := noteText (usernameErrors db seen v.username) v.username number seen.usernames

end RowValues

/-- One row, after the rows above it. -/
def parseRow (calendar : Calendar) (db : Database) (header : List String) (seen : Seen) (number : Nat)
    (raw : List Cell) : Except HTTPException (CheckedRow × Seen) := do
  let v ← readRow calendar header raw
  let disorder ← orderErrors v.contractStartDate v.contractEndDate
  pure (v.checked db seen number disorder, v.noted db seen number)

def isBlankRow (raw : List Cell) : Bool := raw.all fun c => cellText c = ""

/-- The rows from the given number on; a blank row is neither an error nor data. -/
def parseRows (calendar : Calendar) (db : Database) (header : List String) :
    Seen → Nat → List (List Cell) → Except HTTPException (List CheckedRow)
  | _, _, [] => .ok []
  | seen, number, raw :: rest =>
    if isBlankRow raw then parseRows calendar db header seen (number + 1) rest
    else do
      let (row, seen) ← parseRow calendar db header seen number raw
      let rows ← parseRows calendar db header seen (number + 1) rest
      pure (row :: rows)

/-! ## The report -/

structure ImportPreview where
  rows : List CheckedRow
  fileErrors : List String
  deriving DecidableEq

namespace ImportPreview

def valid (preview : ImportPreview) : List CheckedRow := preview.rows.filter CheckedRow.isOk

def invalid (preview : ImportPreview) : List CheckedRow := preview.rows.filter fun row => !row.isOk

end ImportPreview

def missingColumns (header : List String) : List String := requiredColumns.filter (· ∉ header)

/-- `parse_workbook`; `none` is a file that the library cannot read. -/
def parseWorkbook (calendar : Calendar) (db : Database) (sheet : Option (List (List Cell))) :
    Except HTTPException ImportPreview :=
  match sheet with
  | none => .ok ⟨[], ["فایل خوانده نشد؛ باید یک فایل معتبر Excel (.xlsx) باشد."]⟩
  | some [] | some ([] :: _) => .ok ⟨[], ["فایل خالی است."]⟩
  | some (first :: body) =>
    let header := first.map cellText
    if missingColumns header ≠ [] then
      .ok ⟨[], ["این ستون‌ها در فایل نیستند: " ++ "، ".intercalate (missingColumns header)]⟩
    else do
      let rows ← parseRows calendar db header ⟨[], []⟩ 2 body
      if rows = [] then pure ⟨[], ["فایل هیچ ردیف داده‌ای ندارد."]⟩ else pure ⟨rows, []⟩

/-! ## The writing -/

namespace CheckedRow

/-- The row as it is inserted; the dates of a row without errors are there. -/
def toImport (row : CheckedRow) : Option ImportRow :=
  match row.contractStartDate, row.contractEndDate with
  | some start, some stop =>
    some
      { fields :=
          { personnelCode := row.personnelCode
            fullName := row.fullName
            jobTitle := row.jobTitle
            isManager := row.isManager
            orgUnit := row.orgUnit
            contractStartDate := start.day
            contractEndDate := stop.day }
        status := row.status
        username := row.username
        unitSupervisorUserId := row.unitSupervisorUserId
        deputyUserId := row.deputyUserId
        ceoUserId := row.ceoUserId
        startSecond := start.second
        endSecond := stop.second }
  | _, _ => none

end CheckedRow

/-- The texts fit their columns. -/
def PersonnelFields.fitColumns (p : PersonnelFields) : Bool :=
  p.personnelCode.length ≤ 50 && p.fullName.length ≤ 200 && p.jobTitle.length ≤ 150 && p.orgUnit.length ≤ 150

/-- `commit_import`. A text that is too long for its column undoes the whole import. -/
def commitImport (db : Database) (env : Env) (user : CurrentUser) (preview : ImportPreview) :
    Except HTTPException Database := do
  let rows := preview.valid.filterMap CheckedRow.toImport
  ensure (rows.all (fun row => row.fields.fitColumns) = true) internalServerError
  pure ((rows.foldl (importRow env user) db).log [directoryEvent env user "personnel_imported"])

end NexaHR
