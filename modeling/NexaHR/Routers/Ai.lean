import NexaHR.Routers.Form
import NexaHR.Services.Confirmations
import NexaHR.Services.Provider

/-! # The conversations with the assistant

`api/routers/ai.py`: a conversation is opened, renamed and deleted, and a message is answered by the model if
the daily limit of its user has room. What the model makes of a message is part of the request.

* `resolveDailyLimit`, `dailyUsed`, `ensureDailyLimit`: the quota.
* `beginTurn`: the checks of `chat`, and what it has written when the model is asked.
* `chat`: the three ways a turn ends.
* `respond`: every request, with its answer and the rows that it leaves.
-/

namespace NexaHR

open Foundations

set_option autoImplicit false

/-! ## Rows -/

structure AiConversation where
  id : Nat
  userId : Nat
  title : String
  updatedAt : Nat

instance : HasId AiConversation := ⟨AiConversation.id⟩

inductive MessageRole
  | user | assistant
  deriving DecidableEq

structure AiMessage where
  id : Nat
  conversationId : Nat
  role : MessageRole
  content : String
  metaJson : String
  createdAt : Nat

instance : HasId AiMessage := ⟨AiMessage.id⟩

/-- A row of the ledger of costs. It loses its conversation when that is deleted, and stays. -/
structure AiUsageLog where
  userId : Nat
  conversationId : Option Nat
  tokens : TokenUsage
  calls : Nat
  failed : Bool

structure ChatSettings extends AiSettings where
  maxUserChars : Nat

/-- The access of a user, with the key that he was given, if any. -/
structure ChatAccess extends AiUserAccess where
  apiKey : String
  dailyMessageLimit : Int

structure Conversations where
  config : ChatSettings
  serviceKey : String
  access : Nat → Option ChatAccess
  conversations : Table AiConversation
  messages : Table AiMessage
  usage : List AiUsageLog
  clock : Nat

/-! ## Who may ask, and how often -/

def chatForbidden : HTTPException :=
  ⟨403, "دستیار هوشمند برای حساب شما فعال نشده است. از مدیر سامانه بخواهید فعالش کند.", none⟩

/-- `_resolve`: the access that is in effect. -/
def resolveAccess (s : Conversations) (user : CurrentUser) : Except HTTPException ChatAccess := do
  ensure (s.config.enabled = true) ⟨403, "دستیار هوشمند در این سامانه فعال نیست", none⟩
  let access ← require (s.access user.id) chatForbidden
  ensure (access.enabled = true) chatForbidden
  ensure (access.apiKey ≠ "" ∨ s.serviceKey ≠ "")
    ⟨503, "کلید سرویس هوش مصنوعی تنظیم نشده است. مدیر سامانه باید آن را در پنل مدیریت وارد کند.", none⟩
  pure access

/-- A negative limit is none, and 0 is the one of the settings. -/
def resolveDailyLimit (aiDailyMessageLimit : Nat) (access : ChatAccess) : Option Nat :=
  if access.dailyMessageLimit < 0 then none
  else if access.dailyMessageLimit = 0 then some aiDailyMessageLimit
  else some access.dailyMessageLimit.toNat

namespace Conversations

/-- The message is in a conversation of the user. -/
def owns (s : Conversations) (userId : Nat) (m : AiMessage) : Bool :=
  (s.conversations.get? m.conversationId).any fun convo => convo.userId = userId

/-- The user's own messages of the last day. -/
def dailyUsed (s : Conversations) (userId now : Nat) : Nat :=
  (s.messages.rows.filter fun m =>
    s.owns userId m && decide (m.role = .user) && decide (now ≤ m.createdAt + days 1)).length

end Conversations

def ensureDailyLimit (s : Conversations) (user : CurrentUser) (now : Nat) (dailyLimit : Option Nat) :
    Except HTTPException Unit :=
  match dailyLimit with
  | none => .ok ()
  | some limit =>
    ensure (s.dailyUsed user.id now < limit)
      ⟨429, "سقف روزانهٔ شما (" ++ toString limit ++ " پیام) پر شده است.", none⟩

/-! ## Conversations -/

def chatNotFound : HTTPException := ⟨404, "گفت‌وگو پیدا نشد", none⟩

def ownConversation (s : Conversations) (conversationId : Nat) (user : CurrentUser) :
    Except HTTPException AiConversation := do
  let convo ← require (s.conversations.get? conversationId) chatNotFound
  ensure (convo.userId = user.id) chatNotFound
  pure convo

def newConversation (userId now : Nat) (title : String) (id : Nat) : AiConversation := ⟨id, userId, title, now⟩

theorem newConversation_id (userId now : Nat) (title : String) (id : Nat) :
    HasId.id (newConversation userId now title id) = id := rfl

def newMessage (conversationId : Nat) (role : MessageRole) (content metaJson : String) (now id : Nat) :
    AiMessage :=
  ⟨id, conversationId, role, content, metaJson, now⟩

theorem newMessage_id (conversationId : Nat) (role : MessageRole) (content metaJson : String) (now id : Nat) :
    HasId.id (newMessage conversationId role content metaJson now id) = id := rfl

namespace Conversations

def insertConversation (s : Conversations) (userId now : Nat) (title : String) : Conversations :=
  { s with
    conversations := s.conversations.insert (newConversation userId now title)
      (newConversation_id userId now title) }

def insertMessage (s : Conversations) (conversationId : Nat) (role : MessageRole) (content metaJson : String)
    (now : Nat) : Conversations :=
  { s with
    messages := s.messages.insert (newMessage conversationId role content metaJson now)
      (newMessage_id conversationId role content metaJson now) }

/-- A deleted conversation takes its messages along, and leaves the ledger. -/
def dropConversation (s : Conversations) (conversationId : Nat) : Conversations :=
  { s with
    conversations := s.conversations.filter fun convo => convo.id ≠ conversationId
    messages := s.messages.filter fun m => m.conversationId ≠ conversationId
    usage := s.usage.map fun row =>
      if row.conversationId = some conversationId then { row with conversationId := none } else row }

end Conversations

def createConversation (s : Conversations) (user : CurrentUser) (now : Nat) :
    Except HTTPException Conversations := do
  let _ ← resolveAccess s user
  pure (s.insertConversation user.id now "")

def renameConversation (s : Conversations) (user : CurrentUser) (now conversationId : Nat) (title : String) :
    Except HTTPException Conversations := do
  let convo ← ownConversation s conversationId user
  pure
    { s with
      conversations := s.conversations.put
        { convo with title := firstChars 200 (strip title), updatedAt := now } }

def deleteConversation (s : Conversations) (user : CurrentUser) (conversationId : Nat) :
    Except HTTPException Conversations := do
  let convo ← ownConversation s conversationId user
  pure (s.dropConversation convo.id)

/-! ## A turn -/

inductive ProviderError
  | unavailable | requestFailed
  deriving DecidableEq

/-- What the loop has made of the rows that the request had written before it: nothing, or a tool that was
executed committed them, or a tool that failed took them along in its rollback. -/
inductive TurnRows
  | pending | committed | lost
  deriving DecidableEq

/-- What `run_turn` comes to. An error of another kind ends the request. -/
inductive Turn
  | answered (rows : TurnRows) (reply metaJson : String) (usage : TokenUsage) (calls : Nat)
  | failed (rows : TurnRows) (error : ProviderError) (detail : String) (usage : TokenUsage) (calls : Nat)
  | raised (rows : TurnRows)

/-- The rows when the model is asked: the conversation, perhaps a new one, and the message of the user. -/
structure Begun where
  rows : Conversations
  conversationId : Nat
  wasNew : Bool
  messageId : Nat

/-- The given conversation of the user, else a new one. No row has the key 0. -/
def openConversation (s : Conversations) (user : CurrentUser) (now : Nat) (conversationId : Option Nat)
    (text : String) : Except HTTPException (Conversations × Nat × Bool) :=
  match conversationId with
  | some (k + 1) => do
    let convo ← ownConversation s (k + 1) user
    pure (s, convo.id, false)
  | _ => pure (s.insertConversation user.id now (firstChars 60 text), s.conversations.seq + 1, true)

def beginTurn (aiDailyMessageLimit : Nat) (s : Conversations) (user : CurrentUser) (now : Nat)
    (conversationId : Option Nat) (message : String) : Except HTTPException Begun := do
  let access ← resolveAccess s user
  let text := strip message
  ensure (text ≠ "") ⟨400, "پیام خالی است", none⟩
  ensure (text.length ≤ s.config.maxUserChars)
    ⟨400, "پیام از " ++ toString s.config.maxUserChars ++ " نویسه بلندتر است", none⟩
  ensureDailyLimit s user now (resolveDailyLimit aiDailyMessageLimit access)
  let (opened, convo, wasNew) ← openConversation s user now conversationId text
  pure
    { rows := opened.insertMessage convo .user text "" now
      conversationId := convo
      wasNew := wasNew
      messageId := opened.messages.seq + 1 }

namespace Begun

/-- `usage_service.record`: a turn without tokens is not recorded, unless it failed. -/
def recordUsage (b : Begun) (userId : Nat) (usage : TokenUsage) (calls : Nat) (failed : Bool) : List AiUsageLog :=
  if usage.normalized.totalTokens = 0 ∧ failed = false then b.rows.usage
  else ⟨userId, some b.conversationId, usage.normalized, max 1 calls, failed⟩ :: b.rows.usage

/-- The answer is kept, and the conversation is touched. -/
def finish (b : Begun) (userId now : Nat) (reply metaJson : String) (usage : TokenUsage) (calls : Nat) :
    Conversations :=
  let answered := b.rows.insertMessage b.conversationId .assistant reply metaJson now
  { answered with
    conversations := answered.conversations.map (fun convo =>
      if convo.id = b.conversationId then { convo with updatedAt := now } else convo) (by
        intro convo
        split
        · rfl
        · rfl)
    usage := b.recordUsage userId usage calls false }

/-- A failed turn leaves its cost. Its message goes, and with it a conversation that is new and empty. -/
def withdraw (b : Begun) (userId : Nat) (usage : TokenUsage) (calls : Nat) : Conversations :=
  let withoutMessage : Conversations :=
    { b.rows with
      messages := b.rows.messages.filter fun m => m.id ≠ b.messageId
      usage := b.recordUsage userId usage calls true }
  if b.wasNew && !withoutMessage.messages.rows.any (fun m => m.conversationId = b.conversationId) then
    withoutMessage.dropConversation b.conversationId
  else withoutMessage

/-- The rows on which the end of the turn builds. -/
def kept (b : Begun) (s : Conversations) (rows : TurnRows) : Begun :=
  match rows with
  | .lost => { b with rows := s }
  | _ => b

/-- What is left where the request ends with an error of another kind. -/
def aborted (b : Begun) (s : Conversations) (rows : TurnRows) : Conversations :=
  match rows with
  | .committed => b.rows
  | _ => s

/-- The rows of an answer can be written: their conversation is there, and the counts fit into their columns. -/
def answerable (b : Begun) (rows : TurnRows) (usage : TokenUsage) : Bool :=
  !(decide (rows = .lost) && b.wasNew) && usage.normalized.fits

/-- The message of a failed turn can be deleted only while it is there. -/
def withdrawable (rows : TurnRows) (usage : TokenUsage) : Bool :=
  decide (rows ≠ .lost) && usage.normalized.fits

end Begun

def providerStatus : ProviderError → Nat
  | .requestFailed => 502
  | .unavailable => 503

inductive ChatResponse
  | refused (e : HTTPException)
  | done
  | answered (conversationId : Nat) (reply : String)

def chat (aiDailyMessageLimit : Nat) (s : Conversations) (user : CurrentUser) (now : Nat)
    (conversationId : Option Nat) (message : String) (turn : Turn) : Conversations × ChatResponse :=
  match beginTurn aiDailyMessageLimit s user now conversationId message with
  | .error e => (s, .refused e)
  | .ok b =>
    match turn with
    | .answered rows reply metaJson usage calls =>
      if b.answerable rows usage then
        ((b.kept s rows).finish user.id now reply metaJson usage calls, .answered b.conversationId reply)
      else (b.aborted s rows, .refused internalServerError)
    | .failed rows error detail usage calls =>
      if Begun.withdrawable rows usage then
        (b.withdraw user.id usage calls, .refused ⟨providerStatus error, detail, none⟩)
      else (b.aborted s rows, .refused internalServerError)
    | .raised rows => (b.aborted s rows, .refused internalServerError)

/-! ## Requests -/

/-- The requests to the conversations. Uploads, decisions and the digest leave a note of the assistant. -/
inductive ChatCall
  | createConversation
  | renameConversation (conversationId : Nat) (title : String)
  | deleteConversation (conversationId : Nat)
  | chat (conversationId : Option Nat) (message : String) (turn : Turn)
  | note (conversationId : Nat) (content metaJson : String)

structure ChatRequest where
  user : CurrentUser
  now : Nat
  call : ChatCall

/-- What a request that answers nothing leaves. -/
def withoutReply (s : Conversations) (result : Except HTTPException Conversations) :
    Conversations × ChatResponse :=
  match result with
  | .ok s' => (s', .done)
  | .error e => (s, .refused e)

def respond (aiDailyMessageLimit : Nat) (s : Conversations) (req : ChatRequest) :
    Conversations × ChatResponse :=
  match req.call with
  | .createConversation => withoutReply s (createConversation s req.user req.now)
  | .renameConversation conversationId title =>
    withoutReply s (renameConversation s req.user req.now conversationId title)
  | .deleteConversation conversationId => withoutReply s (deleteConversation s req.user conversationId)
  | .chat conversationId message turn =>
    chat aiDailyMessageLimit s req.user req.now conversationId message turn
  | .note conversationId content metaJson =>
    withoutReply s do
      let convo ← ownConversation s conversationId req.user
      pure (s.insertMessage convo.id .assistant content metaJson req.now)

/-- The model answered the message of the request. -/
def ChatResponse.isAnswered : ChatResponse → Bool
  | .answered _ _ => true
  | _ => false

/-- A request is answered at its time, and the clock does not go back. -/
def ChatSteps (aiDailyMessageLimit : Nat) (s : Conversations) (req : ChatRequest) (s' : Conversations) : Prop :=
  s.clock ≤ req.now ∧ s' = { (respond aiDailyMessageLimit s req).1 with clock := req.now }

end NexaHR
