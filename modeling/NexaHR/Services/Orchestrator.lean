import NexaHR.Services.ConversationMemory
import NexaHR.Services.Provider
import NexaHR.Tools.Cards
import NexaHR.Tools.Evaluations
import NexaHR.Tools.Fallback

/-! # A turn of the assistant

`services/ai/orchestrator.py`, with the execution of a tool from `services/ai/tools/base.py`. A turn asks the
service in rounds. While its reply calls tools, the results go back to it with the next round. The replies, the
tools' own work and the instructions are a parameter of the turn.

* `TurnWorld`: who asks, and what the rest of the system answers.
* `receive`: a request, and once more without the tools where the service does not know them.
* `executeCall`, `answerCall`: a call, and the message that answers it.
* `turnAt`: the turn after some rounds.
* `runTurn`: the turn as a whole, with the summary that follows it.
-/

namespace NexaHR

open Foundations

set_option autoImplicit false

abbrev Fields : Type := List (PyKey × PyJson)

/-- `json_content` -/
def jsonContent (fields : List (String × PyJson)) : String :=
  String.ofList (PyJson.dict (fields.map fun field => (.str field.1, field.2))).spacedText

/-! ## What goes to the service and comes back -/

inductive TurnMessage
  | plain (message : ChatMessage)
  | calling (content : WireJson) (toolCalls : List ToolCall)
  | tool (content toolCallId : String)

namespace TurnMessage

/-- The calls that a message of the assistant issues. -/
def issued : TurnMessage → Option (List String)
  | plain message => if message.role = .assistant then some [] else none
  | calling _ toolCalls => some (toolCalls.map ToolCall.id)
  | tool _ _ => none

def answered : TurnMessage → Option String
  | tool _ toolCallId => some toolCallId
  | _ => none

end TurnMessage

/-- The text of a reply that has one. -/
def ModelResponse.text (response : ModelResponse) : String :=
  match response.content with
  | .str s => s
  | _ => ""

structure TurnRequest where
  messages : List TurnMessage
  tools : List ToolSpec := []
  toolChoiceNone : Bool := false

/-! ## What a turn leaves -/

inductive StepStatus
  | ok | awaitingConfirmation | error
  deriving DecidableEq

structure StepTrace where
  tool : String
  status : StepStatus
  summary : String := ""
  detail : Fields := []

/-- `_pending_dict` -/
structure PendingCard where
  id : Nat
  tool : String
  summary : String
  arguments : Fields
  changes : List PreviewRow
  expiresAt : Nat

structure ToolOutcome where
  content : String
  ui : Fields := []
  summary : String := ""

/-- How the loop stands: it goes on, it was left with a reply, or an error ended the turn. -/
inductive TurnStatus
  | running
  | left (reply : String)
  | broken (e : AdapterError)

structure TurnState where
  messages : List TurnMessage := []
  fallbackMode : Bool := false
  requests : List TurnRequest := []
  handled : Nat := 0
  actions : Table AiPendingAction
  steps : List StepTrace := []
  createdPending : List PendingCard := []
  usage : TokenUsage := {}
  providerCalls : Nat := 0
  rows : TurnRows := .pending
  status : TurnStatus := .running

/-- What a turn is about. `service` answers the requests of the turn by their number; `handler`, `preview`, `entry`
and `now` are asked with the number of the call. The `entry` of a call is its card, or its row in the log. -/
structure TurnWorld where
  user : CurrentUser
  caps : List Capability
  allowWrites : Bool
  maxToolIterations : Int
  tools : List ToolSpec
  conversationId : Nat
  userMessageId : Option Nat
  userText : String
  rows : Conversations
  summary : ConversationSummary
  actions : Table AiPendingAction
  py : PythonJson
  loadError : String → String
  describe : ToolSpec → Fields → Option String
  preview : Nat → ToolSpec → Fields → Option (List PreviewRow)
  systemPrompt : Nat → Bool → String
  handler : Nat → ToolSpec → Fields → Except ToolFailure ToolOutcome
  entry : Nat → ToolSpec → Fields → Except PyError Unit
  now : Nat → Nat
  service : Nat → Except AdapterError ModelResponse

namespace TurnWorld

variable (w : TurnWorld)

def registry : Registry := fun name => w.tools.find? fun spec => spec.name = name

/-- `allowed_tools` -/
def specs : List ToolSpec :=
  w.tools.filter fun spec => (w.allowWrites || spec.readOnly) && isAllowed spec w.user w.caps

/-- The rounds of the loop; 0 stands for the default. -/
def rounds : Nat := (max 1 (if w.maxToolIterations = 0 then 6 else w.maxToolIterations)).toNat

/-- `summary_of` -/
def summaryOf (spec : ToolSpec) (arguments : Fields) : String :=
  (w.describe spec arguments).getD
    (spec.name ++ "(" ++
      "، ".intercalate (arguments.map fun argument => argument.1.text ++ "=" ++ w.py.text argument.2) ++ ")")

/-- `preview_of` -/
def previewOf (n : Nat) (spec : ToolSpec) (arguments : Fields) : List PreviewRow :=
  (w.preview n spec arguments).getD
    (genericPreview (arguments.map fun argument => (argument.1.text, argument.2)))

/-! ## Requests -/

def systemMessage (sent : Nat) (fallbackProtocol : Bool) : TurnMessage :=
  .plain ⟨.system, w.systemPrompt sent fallbackProtocol⟩

def openingMessages (sent : Nat) : List TurnMessage :=
  w.systemMessage sent false ::
    ((historyMessages w.rows w.conversationId (w.userMessageId.getD 0) historyWindow).map TurnMessage.plain ++
      [.plain ⟨.user, w.userText⟩])

def opened (t : TurnState) : TurnState :=
  if t.messages.isEmpty then { t with messages := w.openingMessages t.requests.length } else t

/-- `_send` -/
def send (t : TurnState) (tools : List ToolSpec) (toolChoiceNone : Bool) :
    TurnState × Except AdapterError ModelResponse :=
  ({ t with requests := t.requests ++ [⟨t.messages, tools, toolChoiceNone⟩] }, w.service t.requests.length)

/-- From here on the turn writes its calls as blocks. -/
def fallen (t : TurnState) : TurnState :=
  { t with
    fallbackMode := true
    messages := w.systemMessage t.requests.length true :: t.messages.tail }

def wireSpecs (t : TurnState) : List ToolSpec := if t.fallbackMode then [] else w.specs

def receive (forceText : Bool) (t : TurnState) : TurnState × Except AdapterError ModelResponse :=
  let wire := w.wireSpecs t
  match w.send t wire (!wire.isEmpty && forceText) with
  | (t, .error (.protocolUnsupported _ _)) => w.send (w.fallen t) [] false
  | sent => sent

/-! ## Calls -/

def notObject : String := "آرگومان‌ها باید یک شیء JSON باشند"

/-- `_parse_arguments`. The inner error is a `BadToolArguments`. -/
def parseArguments (raw : String) : Except PyError (Except String Fields) :=
  let text := strip raw
  if text = "" then .ok (.ok [])
  else
    match w.py.loads text with
    | .invalid => .ok (.error (w.loadError text))
    | .tooDeep => .error .recursionError
    | .value (.dict arguments) => .ok (.ok arguments)
    | .value _ => .ok (.error notObject)

def readOnlyTool : HTTPException :=
  ⟨403, "اجازهٔ تغییر داده ندارید؛ دستیار شما در حالت فقط-خواندنی است.", none⟩

def toolCrashed : HTTPException :=
  ⟨500, "اجرای این کار در سامانه شکست خورد. جزئیات در گزارش رویدادها ثبت شد.", none⟩

/-- `execute_tool` -/
def executeTool (n : Nat) (spec : ToolSpec) (arguments : Fields) : Except HTTPException ToolOutcome := do
  guardTool spec w.user w.caps
  ensure (spec.readOnly = true ∨ w.allowWrites = true) readOnlyTool
  match w.handler n spec arguments with
  | .ok outcome => .ok outcome
  | .error (.refused e) => .error e
  | .error (.crashed _) => .error toolCrashed

def writesDenied : String := "اجازهٔ تغییر داده ندارید؛ این کنش فقط خواندنی است."

def awaitingNote : String :=
  "این کنش اجرا نشده است. کاربر باید کارتِ تأیید را بپذیرد یا رد کند؛" ++
    " تو در این باره توضیح بده و منتظر بمان."

def numberOf (n : Nat) : PyJson := .number (.int n)

/-- A row and a card for a risky call, and what the model is told. -/
def propose (t : TurnState) (spec : ToolSpec) (arguments : Fields) : TurnState × String :=
  let argumentsJson := String.ofList (PyJson.dict arguments).spacedText
  let now := w.now t.handled
  let id := t.actions.seq + 1
  let summary := w.summaryOf spec arguments
  ({ t with
      actions := t.actions.insert (newAction now w.user w.conversationId spec argumentsJson)
        (newAction_id now w.user w.conversationId spec argumentsJson)
      createdPending := t.createdPending ++
        [⟨id, spec.name, summary, arguments, w.previewOf t.handled spec arguments, now + hours pendingTtlHours⟩]
      steps := t.steps ++
        [⟨spec.name, .awaitingConfirmation, summary, [(.str "pending_action_id", numberOf id)]⟩] },
    jsonContent
      [("status", .str "awaiting_confirmation"), ("pending_action_id", numberOf id), ("summary", .str summary),
        ("note", .str awaitingNote)])

/-- A tool that was let in and fails has its writes rolled back. -/
def rollsBack (n : Nat) (spec : ToolSpec) (arguments : Fields) : Bool :=
  !spec.risky && (guardTool spec w.user w.caps).isOk && (spec.readOnly || w.allowWrites) &&
    !(w.handler n spec arguments).isOk

/-- What a call writes down before it is answered. A tool that refuses at its door leaves nothing. -/
def writeEntry (n : Nat) (spec : ToolSpec) (arguments : Fields) : Except PyError Unit :=
  if spec.risky || ((guardTool spec w.user w.caps).isOk && (spec.readOnly || w.allowWrites)) then
    w.entry n spec arguments
  else .ok ()

/-- `_execute_call` -/
def executeCall (t : TurnState) (spec : ToolSpec) (arguments : Fields) : TurnState × Except HTTPException String :=
  if spec.risky then
    if !w.allowWrites then (t, .ok (jsonContent [("error", .str writesDenied)]))
    else
      match guardTool spec w.user w.caps with
      | .error e => (t, .error e)
      | .ok () =>
        let proposed := w.propose t spec arguments
        (proposed.1, .ok proposed.2)
  else
    match w.executeTool t.handled spec arguments with
    | .error e => (t, .error e)
    | .ok outcome =>
      let summary := if outcome.summary = "" then w.summaryOf spec arguments else outcome.summary
      ({ t with steps := t.steps ++ [⟨spec.name, .ok, summary, outcome.ui⟩] }, .ok outcome.content)

end TurnWorld

namespace TurnState

/-- The first commit or rollback of a turn decides on the rows that the request had written before. -/
def settle (t : TurnState) (rolledBack : Bool) : TurnState :=
  { t with
    rows :=
      match t.rows with
      | .pending => if rolledBack then .lost else .committed
      | rows => rows }

def failedStep (t : TurnState) (tool summary : String) (detail : Fields) : TurnState :=
  { t with steps := t.steps ++ [⟨tool, .error, summary, detail⟩] }

/-- The message that answers a call. -/
def answer (t : TurnState) (content toolCallId : String) : TurnState :=
  { t with
    messages := t.messages ++ [.tool content toolCallId]
    handled := t.handled + 1 }

def charged (t : TurnState) (usage : TokenUsage) : TurnState :=
  { t with
    providerCalls := t.providerCalls + 1
    usage := t.usage.plus usage }

def say (t : TurnState) (message : TurnMessage) : TurnState := { t with messages := t.messages ++ [message] }

def leave (t : TurnState) (reply : String) : TurnState := { t with status := .left reply }

def breakOff (t : TurnState) (e : AdapterError) : TurnState := { t with status := .broken e }

end TurnState

namespace TurnWorld

variable (w : TurnWorld)

def unknownTool (name : String) : String := "ابزاری به نام «" ++ name ++ "» وجود ندارد"

def unreadableArguments (e : String) : String := "آرگومان‌های این فراخوانی JSONِ معتبر نبود: " ++ e

/-- Of the errors in a call only those that are foreseen become an answer. -/
def answerCall (t : TurnState) (call : ToolCall) : TurnState :=
  match getTool w.registry call.name with
  | none =>
    (t.answer (jsonContent [("error", .str (unknownTool call.name))]) call.id).failedStep call.name
      "ابزار شناخته نشد" []
  | some spec =>
    match w.parseArguments call.argumentsJson with
    | .error e => t.breakOff (.raised e)
    | .ok (.error e) =>
      (t.answer
        (jsonContent
          [("error", .str (unreadableArguments e)), ("note", .str "با آرگومان‌های درست دوباره صدا بزن.")])
        call.id).failedStep spec.name "آرگومان‌های ابزار خوانا نبود" []
    | .ok (.ok arguments) =>
      let rollsBack := w.rollsBack t.handled spec arguments
      match w.writeEntry t.handled spec arguments with
      | .error e => (if rollsBack then t.settle true else t).breakOff (.raised e)
      | .ok () =>
        match w.executeCall (t.settle rollsBack) spec arguments with
        | (t, .error e) =>
          (t.failedStep spec.name e.detail [(.str "status", numberOf e.statusCode)]).answer
            (jsonContent [("error", .str e.detail)]) call.id
        | (t, .ok text) => t.answer text call.id

/-- The next call, while no error has ended the turn. -/
def answerNext (t : TurnState) (call : ToolCall) : TurnState :=
  match t.status with
  | .running => w.answerCall t call
  | _ => t

/-! ## Rounds -/

end TurnWorld

/-- A call without a key gets its place as one. -/
def nativeCalls (response : ModelResponse) : List ToolCall :=
  response.toolCalls.mapIdx fun index call =>
    if call.id = "" then { call with id := "call_" ++ toString index } else call

def fallbackCalls (py : PythonJson) (response : ModelResponse) : Except PyError (List ToolCall) := do
  let calls ← parseFallbackBlocks py response.text
  pure (calls.mapIdx fun index call =>
    ⟨"fb_" ++ toString index, call.1, String.ofList (PyJson.dict call.2).spacedText, []⟩)

def cutCallSummary : String := "پاسخ سرویس سرِ سقفِ توکن برید و خواستهٔ ابزار ناقص ماند"

def cutCallReply : String :=
  "پاسخ سرویس سرِ سقفِ توکن برید و خواستهٔ ابزار نیمه‌کاره ماند، پس اجرا " ++
    "نشد. «حداکثر توکن پاسخ» را در تنظیمات دستیار بالا ببرید یا پرسش را " ++
    "کوچک‌تر بپرسید."

def cutReplyNote : String :=
  "\n\n_(پاسخ سرِ سقفِ توکن برید. «حداکثر توکن پاسخ» را در تنظیمات دستیار بالا ببرید.)_"

def lastingReply : String :=
  "کاری که خواستید چند پله پیش رفت؛ برای ادامه از من بخواهید دوباره پیگیری کنم. " ++
    "اگر پیشنهادی در انتظار تأیید است، کارتش را در همین گفت‌وگو می‌بینید."

def visibleText (response : ModelResponse) : String := strip (stripFallbackBlocks response.text)

namespace TurnState

def shownText (t : TurnState) (response : ModelResponse) : String :=
  if t.fallbackMode then visibleText response else strip response.text

def finalReply (t : TurnState) (response : ModelResponse) : String :=
  let reply := t.shownText response
  if response.truncated && reply ≠ "" then reply ++ cutReplyNote else reply

/-- What the assistant said goes into the conversation before its calls are answered. -/
def spoken (t : TurnState) (response : ModelResponse) (calls : List ToolCall) : TurnState :=
  if t.fallbackMode then
    if visibleText response = "" then t else t.say (.plain ⟨.assistant, visibleText response⟩)
  else t.say (.calling response.content calls)

end TurnState

namespace TurnWorld

variable (w : TurnWorld)

def callsOfReply (t : TurnState) (response : ModelResponse) : Except PyError (List ToolCall) :=
  if t.fallbackMode then fallbackCalls w.py response else .ok (nativeCalls response)

/-- Blocks are looked for in a text, and a last reply is one. The content of another reply is passed on. -/
def handleReply (t : TurnState) (response : ModelResponse) : TurnState :=
  if t.fallbackMode && !response.content.isText then t.breakOff (.raised .typeError)
  else
    match w.callsOfReply t response with
    | .error e => t.breakOff (.raised e)
    | .ok [] =>
      if response.content.isText then t.leave (t.finalReply response) else t.breakOff (.raised .attributeError)
    | .ok (first :: others) =>
      if response.truncated then
        (t.failedStep (if first.name = "" then "؟" else first.name) cutCallSummary []).leave cutCallReply
      else (first :: others).foldl w.answerNext (t.spoken response (first :: others))

/-- The tokens of a reply are counted before anything else. -/
def takeReply (t : TurnState) (reply : Except AdapterError ModelResponse) : TurnState :=
  match reply with
  | .error e => t.breakOff e
  | .ok response =>
    match normalizeUsage response.usage with
    | .error e => t.breakOff (.raised e)
    | .ok usage => w.handleReply (t.charged usage) response

def roundTurn (forceText : Bool) (t : TurnState) : TurnState :=
  let received := w.receive forceText (w.opened t)
  w.takeReply received.1 received.2

def turnAt : Nat → TurnState
  | 0 => { actions := w.actions }
  | i + 1 =>
    match (turnAt i).status with
    | .running => w.roundTurn (i + 1 = w.rounds) (turnAt i)
    | _ => turnAt i

/-! ## The turn -/

end TurnWorld

structure TurnResult where
  conversationId : Nat
  reply : String
  steps : List StepTrace
  pending : List PendingCard
  usage : TokenUsage
  calls : Nat

/-- The error that ended a turn. An error of the service carries what the turn had counted. -/
structure TurnFailure where
  error : AdapterError
  usage : TokenUsage
  calls : Nat

/-- A turn that is over. -/
structure TurnEnd where
  requests : List TurnRequest
  actions : Table AiPendingAction
  summary : ConversationSummary
  rows : TurnRows
  result : Except TurnFailure TurnResult

/-- The database takes no text with a NUL. -/
def storable (text : String) : Bool := !text.toList.contains '\x00'

/-- How `chat` takes the end of a turn. It knows the two errors of the adapter, and no others. An answer is over as
well where the database refuses its text or the summary. -/
def TurnEnd.turn (ended : TurnEnd) (metaJson : String) : Turn :=
  match ended.result with
  | .ok result =>
    if storable result.reply && storable ended.summary.text then
      .answered ended.rows result.reply metaJson result.usage result.calls
    else .raised ended.rows
  | .error failure =>
    match failure.error with
    | .unavailable detail => .failed ended.rows .unavailable detail failure.usage failure.calls
    | .requestFailed detail _ => .failed ended.rows .requestFailed detail failure.usage failure.calls
    | .protocolUnsupported detail _ => .failed ended.rows .requestFailed detail failure.usage failure.calls
    | .raised _ => .raised ended.rows

def TurnState.reply (t : TurnState) : String :=
  match t.status with
  | .left reply => if reply = "" then lastingReply else reply
  | _ => lastingReply

/-- The cards whose rows nobody has decided. -/
def TurnState.livePending (t : TurnState) : List PendingCard :=
  t.createdPending.filter fun card => (t.actions.get? card.id).any fun row => row.status = .pending

def TurnState.result (t : TurnState) (conversationId : Nat) : TurnResult :=
  ⟨conversationId, t.reply, t.steps, t.livePending, t.usage, t.providerCalls⟩

namespace TurnWorld

variable (w : TurnWorld)

def unfolded : List AiMessage := pendingMessages w.rows w.summary w.conversationId historyWindow

/-- The summary is asked for in a request of its own. A turn goes on where the service fails. -/
def refreshed (t : TurnState) : TurnState :=
  if w.unfolded.length < refreshAfter then t
  else
    match w.send { t with messages := (summaryPrompt w.summary w.unfolded).map TurnMessage.plain } [] false with
    | (t, .error _) => t
    | (t, .ok response) =>
      if response.content.isText then
        match normalizeUsage response.usage with
        | .error e => t.breakOff (.raised e)
        | .ok usage => t.charged usage
      else t.breakOff (.raised .attributeError)

def refreshedSummary (t : TurnState) : ConversationSummary :=
  refreshSummary w.rows w.summary w.conversationId historyWindow fun _ =>
    match w.service t.requests.length with
    | .ok response => some response.text
    | .error _ => none

/-- `run_turn` -/
def runTurn : TurnEnd :=
  let t := w.turnAt w.rounds
  match t.status with
  | .broken e => ⟨t.requests, t.actions, w.summary, t.rows, .error ⟨e, t.usage, t.providerCalls⟩⟩
  | _ =>
    let refreshed := w.refreshed t
    match refreshed.status with
    | .broken e =>
      ⟨refreshed.requests, t.actions, w.summary, t.rows, .error ⟨e, refreshed.usage, refreshed.providerCalls⟩⟩
    | _ => ⟨refreshed.requests, t.actions, w.refreshedSummary t, t.rows, .ok (refreshed.result w.conversationId)⟩

end TurnWorld

end NexaHR
