import Mathlib.Data.List.Dedup
import Mathlib.Data.List.Sort
import NexaHR.Core.Texts
import NexaHR.Core.Wire
import NexaHR.Foundations.Checks
import NexaHR.Foundations.Scanning

/-! # The service behind the assistant

`services/ai/provider.py` from the answer of the service on, the types of `services/ai/port.py`, and the counting
of tokens from `services/ai/usage.py`. The answer is not trusted: its status, its text and the JSON in it may be
anything.

* `HttpAnswer`, `Posting`: what a request to the service comes to.
* `httpErrorText`: the sentence for an answer of a status from 400 on.
* `readAnswer`, `readCall`: the part that is guarded, and the calls.
* `send`: the adapter.
* `normalizeUsage`: the three numbers of a usage.
-/

namespace NexaHR

open Foundations

set_option autoImplicit false

/-! ## Replies and errors -/

structure ToolCall where
  id : String
  name : String
  argumentsJson : String
  providerExtra : WireFields := []

/-- `ChatResponse` of `services/ai/port.py`. Its text and its usage are as the service gave them. -/
structure ModelResponse where
  content : WireJson := .str ""
  toolCalls : List ToolCall := []
  usage : WireJson := .dict []
  truncated : Bool := false

inductive AdapterError
  | unavailable (detail : String)
  | requestFailed (detail : String) (statusCode : Option Nat)
  | protocolUnsupported (detail : String) (statusCode : Nat)
  | raised (e : PyError)

/-- The errors that the layers above know. -/
def AdapterError.Foreseen : AdapterError → Prop
  | raised _ => False
  | _ => True

/-! ## Answers -/

/-- What `json` finds in an answer; `tooDeep` stands for a text that is nested beyond the stack. -/
inductive HttpBody
  | json (v : WireJson)
  | other
  | tooDeep

structure HttpAnswer where
  statusCode : Nat
  text : String
  body : HttpBody

def HttpAnswer.json (answer : HttpAnswer) : Except PyError WireJson :=
  match answer.body with
  | .json v => .ok v
  | .other => .error .valueError
  | .tooDeep => .error .recursionError

/-- What `client.post` comes to. -/
inductive Posting
  | answered (answer : HttpAnswer)
  | timedOut
  | invalidUrl (err : String)
  | httpError (err : String)

/-- What the code takes from Python: `str` and `json.dumps` of a value. -/
structure WirePython where
  str : WireJson → String
  dumps : WireJson → String

def WirePython.text (py : WirePython) : WireJson → String
  | .str s => s
  | v => py.str v

/-! ## The sentence of an error -/

/-- `str.lower`, as far as it gives letters of ASCII. -/
def lowerChar (c : Char) : List Char :=
  if c = '\u212a' then ['k'] else if c = '\u0130' then ['i', '\u0307'] else [c.toLower]

def lowerText (s : String) : List Char := s.toList.flatMap lowerChar

/-- A letter of a pattern with `re.I`. -/
def matchesIgnoringCase (letter c : Char) : Bool :=
  c.toLower = letter || (letter = 'i' && (c = '\u0130' || c = '\u0131'))

/-- What follows a mark at the beginning of a text. -/
def afterMark : List Char → List Char → Option (List Char)
  | [], rest => some rest
  | _ :: _, [] => none
  | letter :: mark, c :: chars => if matchesIgnoringCase letter c then afterMark mark chars else none

/-- What stands before a mark, and what after it. -/
def cutAtMark (mark : List Char) : List Char → Option (List Char)
  | [] => none
  | c :: chars =>
    match afterMark mark (c :: chars) with
    | some _ => some []
    | none => (cutAtMark mark chars).map (c :: ·)

/-- `<title[^>]*>(.*?)</title>` at the beginning of a text; `>` is the first one. -/
def titleHere (chars : List Char) : Option (List Char) :=
  (afterMark "<title".toList chars).bind fun rest =>
    match rest.dropWhile (· ≠ '>') with
    | [] => none
    | _ :: body => cutAtMark "</title>".toList body

def findTitle : List Char → Option (List Char)
  | [] => none
  | c :: chars =>
    match titleHere (c :: chars) with
    | some title => some title
    | none => findTitle chars

/-- `<[^>]+>` -/
def tagHere : List Char → Option (Unit × List Char)
  | '<' :: rest =>
    match rest.span (· ≠ '>') with
    | (_ :: _, '>' :: after) => some ((), after)
    | _ => none
  | _ => none

/-- `\s+` -/
def blanksHere : List Char → Option (Unit × List Char)
  | c :: chars => if isSpace c then some ((), chars.dropWhile isSpace) else none
  | [] => none

theorem tagHere_consumes (chars : List Char) (u : Unit) (rest : List Char) (h : tagHere chars = some (u, rest)) :
    ∃ whole, whole ≠ [] ∧ chars = whole ++ rest := by
  unfold tagHere at h
  split at h
  · next text =>
    split at h
    · next first inner after hspan =>
      cases h
      rw [List.span_eq_takeWhile_dropWhile, Prod.mk.injEq] at hspan
      refine ⟨'<' :: (first :: inner) ++ ['>'], by simp, ?_⟩
      rw [← List.takeWhile_append_dropWhile (p := fun c => decide (c ≠ '>')) (l := text), hspan.1, hspan.2]
      simp
    · cases h
  · cases h

theorem blanksHere_consumes (chars : List Char) (u : Unit) (rest : List Char)
    (h : blanksHere chars = some (u, rest)) : ∃ whole, whole ≠ [] ∧ chars = whole ++ rest := by
  unfold blanksHere at h
  split at h
  · next c chars =>
    split at h
    · cases h
      refine ⟨c :: chars.takeWhile isSpace, List.cons_ne_nil _ _, ?_⟩
      rw [List.cons_append, List.takeWhile_append_dropWhile]
    · cases h
  · cases h

def tags : Pattern Char Unit := ⟨tagHere, tagHere_consumes⟩

def blanks : Pattern Char Unit := ⟨blanksHere, blanksHere_consumes⟩

/-- `sub(" ", ...)` -/
def blanked (pattern : Pattern Char Unit) (chars : List Char) : List Char :=
  (pattern.pieces chars).map fun piece => piece.plain?.getD ' '

def isWebPage (chars : List Char) : Bool :=
  let start := (((chars.take 400).flatMap lowerChar).dropWhile isSpace)
  "<!doctype".toList.isPrefixOf start || "<html".toList.isPrefixOf start

/-- `_readable` -/
def readable (text : String) : String :=
  let limit := 180
  let stripped := (strip text).toList
  let shown :=
    if isWebPage stripped then
      "پاسخ سرویس یک صفحهٔ وب بود و نه داده: ".toList ++ (findTitle stripped).getD (blanked tags stripped)
    else stripped
  let sentence := strip (String.ofList (blanked blanks (blanked tags shown)))
  firstChars limit sentence ++ if limit < sentence.length then "…" else ""

/-- `_STATUS_HINTS` -/
def statusHint : Nat → String
  | 401 => "کلید API پذیرفته نشد — منقضی یا اشتباه است."
  | 403 => "سرویس دسترسی را رد کرد. معمولاً یعنی کلید برای این مدل یا این کشور مجاز " ++
    "نیست، یا درخواست از مسیری رد شده که سرویس آن را مسدود می‌کند."
  | 404 => "این آدرس یا این نام مدل روی سرویس وجود ندارد."
  | 413 => "پیام برای این سرویس بزرگ بود."
  | 429 => "سهمیهٔ سرویس پر شده یا درخواست‌ها پشت سر هم بوده‌اند. کمی بعد دوباره " ++
    "امتحان کنید؛ اگر تکرار شد، اعتبار حساب و محدودیت نرخِ کلید را ببینید."
  | 500 => "خطا از سمتِ خودِ سرویس است، نه تنظیمات شما."
  | 502 => "خطا از سمتِ خودِ سرویس است، نه تنظیمات شما."
  | 503 => "سرویس موقتاً در دسترس نیست."
  | 529 => "سرویس زیر بار است. کمی بعد دوباره امتحان کنید."
  | _ => ""

/-- What the service says of its error. -/
def errorMessage (body : WireJson) : WireJson :=
  match body with
  | .dict fields =>
    let message : WireJson :=
      match WireFields.lookup fields "error" with
      | some (.dict error) => ((WireFields.lookup error "message").getD .none).or (.str "")
      | some (.str error) => .str error
      | _ => .str ""
    ((message.or ((WireFields.lookup fields "message").getD .none)).or
      ((WireFields.lookup fields "detail").getD .none)).or (.str "")
  | _ => .str ""

def containsText (needle : String) (chars : List Char) : Bool := decide (needle.toList <:+: chars)

variable (py : WirePython)

def errorSentence (answer : HttpAnswer) (message : WireJson) : String :=
  let text := readable (if message.isTrue then py.text message else answer.text)
  let hint := statusHint answer.statusCode
  let said := toString answer.statusCode ++ ": " ++ (if text = "" then "بدون توضیح" else text)
  if hint ≠ "" ∧ containsText (firstChars 20 hint) said.toList = false then said ++ " — " ++ hint else said

/-- `_error_text`; only a `ValueError` is caught. -/
def httpErrorText (answer : HttpAnswer) : Except PyError String :=
  match answer.json with
  | .ok body => .ok (errorSentence py answer (errorMessage body))
  | .error .valueError => .ok (errorSentence py answer (.str ""))
  | .error e => .error e

/-! ## The reply -/

def standardCallKeys : List String := ["id", "type", "index", "function"]

def WireJson.isNone : WireJson → Bool
  | .none => true
  | _ => false

/-- `_provider_extra` -/
def providerExtra (raw : WireJson) : Except PyError WireFields := do
  let fields ← raw.items
  pure (fields.filter fun field => decide (field.1 ∉ standardCallKeys) && !field.2.isNone)

/-- A call at its place in the list. -/
def readCall (index : Nat) (raw : WireJson) : Except PyError ToolCall := do
  let given ← raw.get "function"
  let function := given.or (.dict [])
  let arguments ← function.get "arguments"
  let argumentsJson := match arguments with
    | .str s => s
    | v => py.dumps (v.or (.dict []))
  let id ← raw.get "id"
  let name ← function.get "name"
  let extra ← providerExtra raw
  pure
    { id := py.text (id.or (.str ("call_" ++ toString index)))
      name := strip (py.text (name.or (.str "")))
      argumentsJson := argumentsJson
      providerExtra := extra }

structure AnswerParts where
  body : WireJson
  content : WireJson
  rawCalls : WireJson
  finishReason : String

/-- The part of `send` that stands in its `try`. -/
def readAnswer (answer : HttpAnswer) : Except PyError AnswerParts := do
  let body ← answer.json
  let choices ← body.item "choices"
  let choice ← choices.first
  let message ← choice.item "message"
  let content ← message.get "content"
  let rawCalls ← message.get "tool_calls"
  let finishReason ← choice.get "finish_reason"
  pure ⟨body, content.or (.str ""), rawCalls.or (.list []), py.text (finishReason.or (.str ""))⟩

def isCaught : AdapterError → Bool
  | .raised .valueError => true
  | .raised .keyError => true
  | .raised .indexError => true
  | .raised .typeError => true
  | _ => false

def unreadableAnswer (answer : HttpAnswer) : AdapterError :=
  .requestFailed
    ("پاسخ سرویس قابل خواندن نبود. معمولاً یعنی آدرس سرویس به یک نقطهٔ " ++
      "پایانیِ سازگار با OpenAI اشاره نمی‌کند. پاسخ: " ++ firstChars 200 answer.text) none

def readResponse (answer : HttpAnswer) : Except AdapterError ModelResponse := do
  let parts ← guarded isCaught (fun _ => .error (unreadableAnswer answer))
    ((readAnswer py answer).mapError .raised)
  let rawCalls ← parts.rawCalls.elements.mapError .raised
  let calls ← (loopFrom (readCall py) 0 rawCalls).mapError .raised
  let usage ← (parts.body.get "usage").mapError .raised
  pure
    { content := parts.content
      toolCalls := calls
      usage := usage.or (.dict [])
      truncated := parts.finishReason = "length" }

def toolNeedles : List String := ["tool", "function", "unrecognized", "unknown", "invalid type", "extra fields"]

/-- An answer of a status from 400 on. -/
def refuseAnswer (tools : Bool) (answer : HttpAnswer) : Except AdapterError ModelResponse := do
  let text ← (httpErrorText py answer).mapError .raised
  if tools && decide (answer.statusCode ∈ [400, 404, 422]) &&
      toolNeedles.any (fun needle => containsText needle (lowerText text)) then
    .error (.protocolUnsupported text answer.statusCode)
  else .error (.requestFailed text (some answer.statusCode))

/-! ## The adapter -/

/-- The settings as the constructor leaves them: without outer blanks, the secrets without invisible characters. -/
structure OpenAiCompatibleAdapter where
  baseUrl : String
  apiKey : String
  model : String
  timeout : Nat

namespace OpenAiCompatibleAdapter

def available (adapter : OpenAiCompatibleAdapter) : Bool :=
  adapter.baseUrl ≠ "" && adapter.apiKey ≠ "" && adapter.model ≠ ""

end OpenAiCompatibleAdapter

/-- `_non_ascii` -/
def nonAscii (value : String) : String :=
  " ".intercalate
    ((((value.toList.filter fun ch => 127 < ch.toNat).map Char.toNat).dedup.insertionSort (· ≤ ·)).map
      fun ch => "«" ++ String.ofList [Char.ofNat ch] ++ "»")

def foreignLetters (label bad : String) : AdapterError :=
  .requestFailed
    (label ++ " نویسهٔ غیرانگلیسی دارد (" ++ bad ++ ") و سرویس‌ها فقط نویسهٔ انگلیسی " ++
      "می‌پذیرند. معمولاً یعنی هنگام کپی‌کردن، نویسه‌ای از متنِ اطرافش هم " ++
      "آمده؛ آن را دستی و بی‌فاصله دوباره وارد کنید.") none

/-- The checks before the request. -/
def OpenAiCompatibleAdapter.ready (adapter : OpenAiCompatibleAdapter) : Except AdapterError Unit := do
  ensure (adapter.available = true) (.unavailable "دستیار هوشمند هنوز پیکربندی نشده است")
  ensure (nonAscii adapter.apiKey = "") (foreignLetters "کلید API" (nonAscii adapter.apiKey))
  ensure (nonAscii adapter.model = "") (foreignLetters "نام مدل" (nonAscii adapter.model))

/-- `send`; `tools` tells if the request offers tools. -/
def send (adapter : OpenAiCompatibleAdapter) (tools : Bool) (posting : Posting) :
    Except AdapterError ModelResponse := do
  adapter.ready
  match posting with
  | .timedOut =>
    .error
      (.requestFailed
        ("سرویس در " ++ toString adapter.timeout ++
          " ثانیه پاسخ نداد. آدرس سرویس یا اتصال شبکه را بررسی کنید.") none)
  | .invalidUrl err =>
    .error
      (.requestFailed
        ("آدرس سرویس معتبر نیست: " ++ err ++ " — آدرس باید مثل https://api.openai.com/v1 باشد.") none)
  | .httpError err => .error (.requestFailed ("اتصال به سرویس ممکن نشد: " ++ err) none)
  | .answered answer =>
    if 400 ≤ answer.statusCode then refuseAnswer py tools answer else readResponse py answer

/-! ## Tokens -/

structure TokenUsage where
  promptTokens : Nat := 0
  completionTokens : Nat := 0
  totalTokens : Nat := 0
  deriving DecidableEq

namespace TokenUsage

def plus (a b : TokenUsage) : TokenUsage :=
  ⟨a.promptTokens + b.promptTokens, a.completionTokens + b.completionTokens, a.totalTokens + b.totalTokens⟩

/-- `normalize` of three counts of our own. -/
def normalized (u : TokenUsage) : TokenUsage :=
  { u with totalTokens := if u.totalTokens = 0 then u.promptTokens + u.completionTokens else u.totalTokens }

/-- The counts fit into integer columns. -/
def fits (u : TokenUsage) : Bool :=
  decide (u.promptTokens ≤ 2147483647) && decide (u.completionTokens ≤ 2147483647) &&
    decide (u.totalTokens ≤ 2147483647)

end TokenUsage

/-- `_first_int`; `int` of an infinite number and of NaN raises. -/
def firstInt (usage : WireFields) : List String → Except PyError Nat
  | [] => .ok 0
  | key :: keys =>
    match WireFields.lookup usage key with
    | some (.number n) =>
      match n.whole? with
      | some count => .ok count.toNat
      | none => firstInt usage keys
    | some (.infinite _) => .error .overflowError
    | some .nan => .error .valueError
    | _ => firstInt usage keys

def promptKeys : List String := ["prompt_tokens", "input_tokens"]

def completionKeys : List String := ["completion_tokens", "output_tokens"]

def totalKeys : List String := ["total_tokens"]

/-- `normalize` of `services/ai/usage.py`. -/
def normalizeUsage (usage : WireJson) : Except PyError TokenUsage :=
  match usage with
  | .dict fields => do
    let prompt ← firstInt fields promptKeys
    let completion ← firstInt fields completionKeys
    let total ← firstInt fields totalKeys
    pure ⟨prompt, completion, if total = 0 then prompt + completion else total⟩
  | _ => pure {}

end NexaHR
