import NexaHR.Core.Json

/-! # The card of a proposal

`services/ai/tools/base.py`: the rows that a user reads before he confirms. A tool may build its own rows; for
the others the arguments are listed.

* `formatValue`: a value as a text of the card.
* `PreviewRow`, `change`: the rows.
* `genericPreview`: the rows of a tool that builds none.
-/

namespace NexaHR

open Foundations

set_option autoImplicit false

/-! ## Values -/

/-- Texts between two marks, with `, ` between them. -/
def spacedTexts : List (List Char) → List Char
  | [] => []
  | [t] => t
  | t :: u :: ts => t ++ ',' :: ' ' :: spacedTexts (u :: ts)

mutual

/-- `json.dumps` without `ensure_ascii`, with the blanks that it puts by itself. -/
def PyJson.spacedText : PyJson → List Char
  | .none => "null".toList
  | .bool b => (if b then "true" else "false").toList
  | .number n => n.text
  | .str s => stringText s
  | .list items => '[' :: spacedTexts (spacedItems items) ++ [']']
  | .dict items => '\x7b' :: spacedTexts (spacedFields items) ++ ['\x7d']

def spacedItems : List PyJson → List (List Char)
  | [] => []
  | v :: items => v.spacedText :: spacedItems items

def spacedFields : List (PyKey × PyJson) → List (List Char)
  | [] => []
  | (k, v) :: items => (stringText k.text ++ ':' :: ' ' :: v.spacedText) :: spacedFields items

end

mutual

/-- `format_value` -/
def formatValue : PyJson → String
  | .none => "—"
  | .bool b => if b then "فعال" else "غیرفعال"
  | .number n => String.ofList n.text
  | .str s => if s = "" then "—" else s
  | .list [] => "—"
  | .list (v :: items) => "، ".intercalate (formatValue v :: formatValues items)
  | .dict items => String.ofList (PyJson.dict items).spacedText

def formatValues : List PyJson → List String
  | [] => []
  | v :: items => formatValue v :: formatValues items

end

/-! ## Rows -/

inductive RowKind
  | change | add | remove | info
  deriving DecidableEq, Repr

structure PreviewRow where
  label : String
  before : String
  after : String
  kind : RowKind
  deriving DecidableEq

/-- `change` -/
def change (label : String) (before after : PyJson) (kind : RowKind) : PreviewRow where
  label := label
  before := formatValue before
  after := formatValue after
  kind := kind

/-- A text of a row, or none. -/
def optionalStr (text : Option String) : PyJson :=
  match text with
  | none => .none
  | some s => .str s

/-! ## Rows of the arguments -/

def argumentLabels : List (String × String) :=
  [("user_id", "حساب کاربری"), ("username", "نام کاربری"), ("personnel_id", "پرسنل"),
    ("full_name", "نام و نام خانوادگی"), ("role", "نقش"), ("is_active", "وضعیت حساب"),
    ("capabilities", "مجوزها"), ("unit_supervisor", "مسئول مستقیم"), ("deputy", "معاونت"),
    ("ceo", "مدیرعامل"), ("national_id", "کد ملی"), ("personnel_code", "کد پرسنلی"),
    ("job_title", "عنوان شغلی"), ("org_unit", "واحد سازمانی"), ("site", "محل خدمت"), ("status", "وضعیت"),
    ("separation_reason", "علت خروج"), ("separation_date", "تاریخ خروج"), ("action", "اقدام"),
    ("evaluation_id", "پرونده"), ("reason", "دلیل"), ("name", "نام"), ("description", "شرح"),
    ("upload_id", "فایل بارگذاری‌شده"), ("password", "رمز عبور"), ("new_password", "رمز عبور"),
    ("api_key", "کلید سرویس"), ("token", "توکن")]

def argumentLabel (key : String) : String := (argumentLabels.lookup key).getD key

/-- `_SECRET_ARGUMENTS` -/
def secretArguments : List String := ["password", "api_key", "new_password", "token"]

/-- `_MASK` -/
def maskText : String := "••••••"

def argumentRow (key : String) (value : PyJson) : PreviewRow :=
  if key ∈ secretArguments then change (argumentLabel key) .none (.str maskText) .info
  else change (argumentLabel key) .none value .info

/-- `generic_preview` -/
def genericPreview (arguments : List (String × PyJson)) : List PreviewRow :=
  arguments.map fun argument => argumentRow argument.1 argument.2

end NexaHR
