import NexaHR.Foundations.Page
import NexaHR.Routers.Ai

/-! # What a turn remembers

The last messages of a conversation go to the model as they are (`_history_messages` of
`services/ai/orchestrator.py`), and what fell out of that window is folded into a summary
(`services/ai/summary.py`). The summarizing service is part of the request: it gets the prompt and fails or
answers.

* `historyRows`: the window of a turn.
* `pendingMessages`, `refreshSummary`: the messages to fold, and the summary after a turn.
* `converse`, `MemorySteps`: a request, with what it does to the summaries.
-/

namespace NexaHR

open Foundations

set_option autoImplicit false

def historyWindow : Nat := 12

def refreshAfter : Nat := 6

def maxSummaryChars : Nat := 1200

/-- The two columns of a conversation that hold its summary. No message has the key 0. -/
structure ConversationSummary where
  text : String := ""
  throughMessageId : Nat := 0

inductive ChatRole
  | system | user | assistant
  deriving DecidableEq

structure ChatMessage where
  role : ChatRole
  content : String
  deriving DecidableEq

/-! ## The window -/

/-- The messages of a conversation in the order of their keys. Every message is the user's or the assistant's. -/
def dialogue (s : Conversations) (conversationId : Nat) : List AiMessage :=
  sortedBy AiMessage.id (s.messages.rows.filter fun m => m.conversationId = conversationId)

def historyRows (s : Conversations) (conversationId excludeId limit : Nat) : List AiMessage :=
  ((dialogue s conversationId).filter fun m => m.id ≠ excludeId).rtake limit

def MessageRole.chatRole : MessageRole → ChatRole
  | .user => .user
  | .assistant => .assistant

def historyMessages (s : Conversations) (conversationId excludeId limit : Nat) : List ChatMessage :=
  (historyRows s conversationId excludeId limit).map fun m => ⟨m.role.chatRole, m.content⟩

/-! ## The summary -/

def summaryInstruction : String :=
  "این بخشِ قدیمیِ یک گفت‌وگوی کاری در سامانهٔ ارزیابی عملکرد است. " ++
  "در حداکثر صد کلمهٔ فارسی خلاصه‌اش کن: چه چیزی خواسته شد، چه تصمیمی " ++
  "گرفته شد، چه فایلی در کار است، و چه چیزی هنوز باز مانده. " ++
  "فقط از همین متن بنویس و هیچ چیزی را حدس نزن. " ++
  "اگر خلاصهٔ قبلی داده شده، آن را با این بخش ادغام کن و یک متنِ واحد بده."

/-- The messages before the window that the summary does not have. -/
def pendingMessages (s : Conversations) (summary : ConversationSummary) (conversationId window : Nat) :
    List AiMessage :=
  ((dialogue s conversationId).rdrop window).filter fun m => summary.throughMessageId < m.id

def speaker : MessageRole → String
  | .user => "کاربر"
  | .assistant => "دستیار"

def summaryPrompt (summary : ConversationSummary) (pending : List AiMessage) : List ChatMessage :=
  let transcript := "\n".intercalate (pending.map fun m => speaker m.role ++ ": " ++ m.content)
  let previous := strip summary.text
  let body :=
    (if previous = "" then "" else "خلاصهٔ قبلی:\n" ++ previous ++ "\n\n") ++ "بخشِ تازه:\n" ++ transcript
  [⟨.system, summaryInstruction⟩, ⟨.user, body⟩]

/-- The summary after a turn. A service that fails or says nothing leaves the old one. -/
def refreshSummary (s : Conversations) (summary : ConversationSummary) (conversationId window : Nat)
    (service : List ChatMessage → Option String) : ConversationSummary :=
  let pending := pendingMessages s summary conversationId window
  if pending.length < refreshAfter then summary
  else
    match service (summaryPrompt summary pending), pending.getLast? with
    | some content, some newest =>
      if strip content = "" then summary else ⟨firstChars maxSummaryChars (strip content), newest.id⟩
    | _, _ => summary

/-! ## Requests -/

structure Chats where
  rows : Conversations
  summaries : Nat → ConversationSummary

/-- A request, and what the summarizing service makes of a prompt. -/
structure MemoryRequest where
  request : ChatRequest
  service : List ChatMessage → Option String

/-- The turn that a request begins. -/
def beganTurn (aiDailyMessageLimit : Nat) (s : Conversations) (req : ChatRequest) : Option Begun :=
  match req.call with
  | .chat conversationId message _ =>
    (beginTurn aiDailyMessageLimit s req.user req.now conversationId message).toOption
  | _ => none

/-- The turn that the model answered, with the rows that it has. The summary is refreshed before the answer is
kept. -/
def answeredTurn (aiDailyMessageLimit : Nat) (s : Conversations) (req : ChatRequest) : Option Begun :=
  match req.call with
  | .chat _ _ (.answered rows _ _ usage _) =>
    ((beganTurn aiDailyMessageLimit s req).filter fun b => b.answerable rows usage).map fun b => b.kept s rows
  | _ => none

/-- The summaries after a request. A deleted conversation takes its summary along. -/
def summariesAfter (aiDailyMessageLimit : Nat) (s : Chats) (req : MemoryRequest) (rows : Conversations)
    (conversationId : Nat) : ConversationSummary :=
  if (rows.conversations.get? conversationId).isNone then {}
  else
    match answeredTurn aiDailyMessageLimit s.rows req.request with
    | none => s.summaries conversationId
    | some b =>
      if b.conversationId = conversationId then
        refreshSummary b.rows (s.summaries conversationId) conversationId historyWindow req.service
      else s.summaries conversationId

def converse (aiDailyMessageLimit : Nat) (s : Chats) (req : MemoryRequest) : Chats :=
  let rows := { (respond aiDailyMessageLimit s.rows req.request).1 with clock := req.request.now }
  ⟨rows, summariesAfter aiDailyMessageLimit s req rows⟩

def MemorySteps (aiDailyMessageLimit : Nat) (s : Chats) (req : MemoryRequest) (s' : Chats) : Prop :=
  s.rows.clock ≤ req.request.now ∧ s' = converse aiDailyMessageLimit s req

/-- What the model is asked with: the summary in its instructions, the window, and the message. -/
def promptOf (s : Chats) (b : Begun) : String × List ChatMessage :=
  ((s.summaries b.conversationId).text, historyMessages b.rows b.conversationId b.messageId historyWindow)

end NexaHR
