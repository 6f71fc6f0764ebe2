import NexaHR.Foundations.Runs
import NexaHR.Foundations.SlidingWindow
import NexaHR.Routers.Ai

/-! # The daily limit of the assistant

The quota counts the messages that are still there. A failed turn takes its message back, and a deleted
conversation takes its messages along, so a deletion gives room for as many messages as it deletes.

* `recent`: the messages of a user since a time, as the quota counts them.
* `recent_answered`, `recent_kept`: an answer is counted, and nothing but a deletion takes from the count.
* `daily_limit_holds`: in a run where no conversation with a message of the last day is deleted, no window of
  a day holds more answers than the limit.
* `deletion_resets_the_limit`: otherwise it can.
-/

namespace NexaHR

open Foundations

set_option autoImplicit false

abbrev ChatRun (aiDailyMessageLimit : Nat) (tr : List (Taken Conversations ChatRequest)) (s : Conversations) :
    Prop :=
  Run (fun _ => True) (ChatSteps aiDailyMessageLimit) tr s

/-- The times of the messages of a user that the model answered, the newest first. -/
def answeredTimes (aiDailyMessageLimit userId : Nat) (tr : List (Taken Conversations ChatRequest)) : List Nat :=
  (tr.filter fun x =>
    decide (x.label.user.id = userId) && (respond aiDailyMessageLimit x.before x.label).2.isAnswered).map
      fun x => x.label.now

/-- The request does not delete a conversation with a message that its user sent within the last day, and its own
message does not vanish in the rollback of a tool before it is answered. -/
structure KeepsRecent (x : Taken Conversations ChatRequest) : Prop where
  deleted : ∀ conversationId, x.label.call = .deleteConversation conversationId →
    ∀ m ∈ x.before.messages, m.conversationId = conversationId → m.role = .user →
      m.createdAt + days 1 < x.label.now
  lost : ∀ conversationId message reply metaJson usage calls,
    x.label.call ≠ .chat conversationId message (.answered .lost reply metaJson usage calls)

/-! ## The count -/

/-- The user's own messages since a time. -/
def recent (s : Conversations) (userId from' : Nat) : Nat :=
  s.messages.rows.countP fun m => s.owns userId m && decide (m.role = .user) && decide (from' ≤ m.createdAt)

section

variable {s s' : Conversations} {userId from' now limit : Nat} {user : CurrentUser}

theorem dailyUsed_eq (s : Conversations) (userId now : Nat) :
    s.dailyUsed userId now = recent s userId (now - days 1) := by
  unfold Conversations.dailyUsed recent
  rw [← List.countP_eq_length_filter]
  apply List.countP_congr
  intro m _
  simp only [Bool.and_eq_true, decide_eq_true_eq, and_congr_right_iff]
  intro _
  omega

/-- The messages stay, with whose they are and who may ask. -/
structure Keeps (s s' : Conversations) : Prop where
  access : s'.access = s.access
  rows : s.messages.rows.Sublist s'.messages.rows
  owners : ∀ userId m, s.owns userId m = true → s'.owns userId m = true

theorem Keeps.refl (s : Conversations) : Keeps s s := ⟨rfl, List.Sublist.refl _, fun _ _ h => h⟩

theorem Keeps.trans {s'' : Conversations} (h : Keeps s s') (h' : Keeps s' s'') : Keeps s s'' :=
  ⟨h'.access.trans h.access, h.rows.trans h'.rows, fun userId m howns => h'.owners userId m (h.owners userId m howns)⟩

theorem recent_kept (h : Keeps s s') (userId from' : Nat) : recent s userId from' ≤ recent s' userId from' := by
  unfold recent
  refine (h.rows.countP_le).trans ?_
  apply List.countP_mono_left
  intro m _ hm
  simp only [Bool.and_eq_true, decide_eq_true_eq] at hm ⊢
  exact ⟨⟨h.owners userId m hm.1.1, hm.1.2⟩, hm.2⟩

theorem owns_eq_true {m : AiMessage} : s.owns userId m = true ↔
    ∃ convo, s.conversations.get? m.conversationId = some convo ∧ convo.userId = userId := by
  unfold Conversations.owns
  cases s.conversations.get? m.conversationId with
  | none => simp
  | some convo => simp

/-! ## What each write keeps -/

theorem insertConversation_keeps (s : Conversations) (userId now : Nat) (title : String) :
    Keeps s (s.insertConversation userId now title) := by
  refine ⟨rfl, List.Sublist.refl _, ?_⟩
  intro owner m howns
  obtain ⟨convo, hget, howner⟩ := owns_eq_true.mp howns
  exact owns_eq_true.mpr
    ⟨convo, Table.get?_insert_of_get? (newConversation_id userId now title) hget, howner⟩

theorem insertMessage_keeps (s : Conversations) (conversationId : Nat) (role : MessageRole)
    (content metaJson : String) (now : Nat) : Keeps s (s.insertMessage conversationId role content metaJson now) :=
  ⟨rfl, List.sublist_append_left _ _, fun _ _ howns => howns⟩

/-- A conversation that keeps its owner keeps its messages his. -/
theorem map_keeps (s : Conversations) (f : AiConversation → AiConversation)
    (hid : ∀ convo, HasId.id (f convo) = HasId.id convo) (howner : ∀ convo, (f convo).userId = convo.userId)
    (usage : List AiUsageLog) :
    Keeps s { s with conversations := s.conversations.map f hid, usage := usage } := by
  refine ⟨rfl, List.Sublist.refl _, ?_⟩
  intro userId m howns
  obtain ⟨convo, hget, hconvo⟩ := owns_eq_true.mp howns
  refine owns_eq_true.mpr ⟨f convo, ?_, ?_⟩
  · show (s.conversations.map f hid).get? m.conversationId = some (f convo)
    rw [Table.get?_map, hget]
    rfl
  · rw [howner, hconvo]

/-- A deleted conversation takes none of the messages that are looked for. -/
theorem recent_dropped {conversationId : Nat}
    (hold : ∀ m ∈ s.messages, m.conversationId = conversationId → m.role = .user → m.createdAt < from')
    (userId : Nat) : recent s userId from' ≤ recent (s.dropConversation conversationId) userId from' := by
  show _ ≤ (s.messages.rows.filter fun m => m.conversationId ≠ conversationId).countP _
  unfold recent
  rw [List.countP_filter]
  apply List.countP_mono_left
  intro m hmem hm
  simp only [Bool.and_eq_true, decide_eq_true_eq] at hm ⊢
  obtain ⟨⟨howns, hrole⟩, hsince⟩ := hm
  have hother : m.conversationId ≠ conversationId := by
    intro hin
    have hbefore := hold m hmem hin hrole
    omega
  obtain ⟨convo, hget, howner⟩ := owns_eq_true.mp howns
  have hid : convo.id = m.conversationId := Table.id_of_get? hget
  have hstays : (s.dropConversation conversationId).owns userId m = true := by
    refine owns_eq_true.mpr ⟨convo, ?_, howner⟩
    show (s.conversations.filter fun convo => convo.id ≠ conversationId).get? m.conversationId = some convo
    rw [Table.get?_filter, hget, Option.filter_some, if_pos]
    simp [hid, hother]
  exact ⟨⟨⟨hstays, hrole⟩, hsince⟩, hother⟩

/-! ## A turn -/

theorem openConversation_ok {opened : Conversations} {conversationId : Option Nat} {text : String}
    {convo : Nat} {wasNew : Bool}
    (h : openConversation s user now conversationId text = .ok (opened, convo, wasNew)) :
    (opened.conversations.get? convo).any (fun c => c.userId = user.id) = true ∧
      ((wasNew = false ∧ opened = s) ∨
        (wasNew = true ∧ convo = s.conversations.seq + 1 ∧
          opened = s.insertConversation user.id now (firstChars 60 text))) := by
  unfold openConversation at h
  split at h
  next k =>
    simp only [ownConversation, bind_eq_ok, pure_eq_ok, require_eq_ok, ensure_eq_ok] at h
    obtain ⟨_, ⟨found, hget, -, howner, rfl⟩, hopened⟩ := h
    cases hopened
    have hid : found.id = k + 1 := Table.id_of_get? hget
    rw [hid, hget]
    exact ⟨by simp [howner], Or.inl ⟨rfl, rfl⟩⟩
  next =>
    cases h
    refine ⟨?_, Or.inr ⟨rfl, rfl, rfl⟩⟩
    simp only [Conversations.insertConversation, Table.get?_insert_self, Option.any_some]
    simp [newConversation]

theorem openConversation_keeps {opened : Conversations} {conversationId : Option Nat} {text : String}
    {convo : Nat} {wasNew : Bool}
    (h : openConversation s user now conversationId text = .ok (opened, convo, wasNew)) : Keeps s opened := by
  obtain ⟨-, ⟨-, rfl⟩ | ⟨-, -, rfl⟩⟩ := openConversation_ok h
  · exact Keeps.refl opened
  · exact insertConversation_keeps s user.id now _

/-- What the begun turn has written: the message of the user, in a conversation of his. -/
structure Began (s : Conversations) (user : CurrentUser) (now : Nat) (b : Begun) : Prop where
  keeps : Keeps s b.rows
  counted : ∀ from', recent s user.id from' + (if from' ≤ now then 1 else 0) ≤ recent b.rows user.id from'
  messages : s.messages.rows.Sublist (b.rows.messages.filter fun m => m.id ≠ b.messageId).rows
  fresh : b.wasNew = true → b.conversationId = s.conversations.seq + 1

theorem recent_insertMessage (s : Conversations) {conversationId : Nat}
    (howner : (s.conversations.get? conversationId).any (fun c => c.userId = userId) = true)
    (content metaJson : String) (now from' : Nat) :
    recent s userId from' + (if from' ≤ now then 1 else 0) =
      recent (s.insertMessage conversationId .user content metaJson now) userId from' := by
  unfold recent
  simp only [Conversations.insertMessage, Table.insert, List.countP_append, List.countP_singleton]
  congr 1
  by_cases hsince : from' ≤ now
  · simp [Conversations.owns, newMessage, howner, hsince]
  · simp [newMessage, hsince]

theorem beginTurn_ok {aiDailyMessageLimit : Nat} {conversationId : Option Nat} {message : String} {b : Begun}
    (h : beginTurn aiDailyMessageLimit s user now conversationId message = .ok b) :
    Began s user now b ∧ ∀ access, s.access user.id = some access →
      ∀ limit, resolveDailyLimit aiDailyMessageLimit access = some limit → s.dailyUsed user.id now < limit := by
  simp only [beginTurn, resolveAccess, bind_eq_ok, pure_eq_ok, require_eq_ok, ensure_eq_ok] at h
  obtain ⟨access, ⟨-, -, _, haccess, -, -, -, -, rfl⟩, -, -, -, -, _, hquota, ⟨opened, convo, wasNew⟩, hopen,
    rfl⟩ := h
  have hkeeps := openConversation_keeps hopen
  obtain ⟨howner, hcases⟩ := openConversation_ok hopen
  have hmessages : opened.messages = s.messages := by
    rcases hcases with ⟨-, rfl⟩ | ⟨-, -, rfl⟩
    · rfl
    · rfl
  constructor
  · constructor
    · exact hkeeps.trans (insertMessage_keeps opened convo .user _ _ now)
    · intro from'
      rw [← recent_insertMessage opened howner]
      exact Nat.add_le_add_right (recent_kept hkeeps user.id from') _
    · have hbefore : ∀ m ∈ s.messages.rows, decide (m.id ≠ s.messages.seq + 1) = true := by
        intro m hm
        have hle : m.id ≤ s.messages.seq := s.messages.le_seq m hm
        apply decide_eq_true
        omega
      simp only [Conversations.insertMessage, Table.filter, Table.insert, hmessages, List.filter_append]
      rw [List.filter_eq_self.mpr hbefore]
      exact List.sublist_append_left _ _
    · intro hnew
      rcases hcases with ⟨hold, -⟩ | ⟨-, hkey, -⟩
      · rw [hold] at hnew
        cases hnew
      · exact hkey
  · intro access' haccess' limit hlimit
    rw [haccess] at haccess'
    cases haccess'
    unfold ensureDailyLimit at hquota
    rw [hlimit, ensure_eq_ok] at hquota
    exact hquota

theorem finish_keeps (b : Begun) (userId now : Nat) (reply metaJson : String) (usage : TokenUsage) (calls : Nat) :
    Keeps b.rows (b.finish userId now reply metaJson usage calls) := by
  refine (insertMessage_keeps b.rows b.conversationId .assistant reply metaJson now).trans ?_
  apply map_keeps
  intro convo
  split
  · rfl
  · rfl

/-- A new conversation is dropped only while it is empty, and no older message was in it. -/
theorem withdraw_keeps {b : Begun} (h : Began s user now b) (userId : Nat) (usage : TokenUsage) (calls : Nat) :
    Keeps s (b.withdraw userId usage calls) := by
  unfold Begun.withdraw
  simp only
  split
  next hempty =>
    simp only [Bool.and_eq_true, Bool.not_eq_true', List.any_eq_false, decide_eq_true_eq] at hempty
    obtain ⟨hnew, hnone⟩ := hempty
    refine ⟨h.keeps.access, ?_, ?_⟩
    · have hall : (b.rows.messages.filter fun m => m.id ≠ b.messageId).rows.filter
          (fun m => decide (m.conversationId ≠ b.conversationId)) =
            (b.rows.messages.filter fun m => m.id ≠ b.messageId).rows :=
        List.filter_eq_self.mpr fun m hm => decide_eq_true (hnone m hm)
      have hmessages := h.messages
      rw [← hall] at hmessages
      exact hmessages
    · intro owner m howns
      obtain ⟨old, hold, -⟩ := owns_eq_true.mp howns
      obtain ⟨convo, hget, howner⟩ := owns_eq_true.mp (h.keeps.owners owner m howns)
      have hle : m.conversationId ≤ s.conversations.seq := Table.le_seq_of_get? hold
      have hkey := h.fresh hnew
      have hid : convo.id = m.conversationId := Table.id_of_get? hget
      refine owns_eq_true.mpr ⟨convo, ?_, howner⟩
      show (b.rows.conversations.filter fun c => c.id ≠ b.conversationId).get? m.conversationId = some convo
      rw [Table.get?_filter, hget, Option.filter_some, if_pos]
      simp only [decide_eq_true_eq]
      omega
  next => exact ⟨h.keeps.access, h.messages, h.keeps.owners⟩

theorem kept_keeps {b : Begun} (h : Began s user now b) (rows : TurnRows) : Keeps s (b.kept s rows).rows := by
  cases rows with
  | lost => exact Keeps.refl s
  | _ => exact h.keeps

theorem aborted_keeps {b : Begun} (h : Began s user now b) (rows : TurnRows) : Keeps s (b.aborted s rows) := by
  cases rows with
  | committed => exact h.keeps
  | _ => exact Keeps.refl s

/-! ## A request -/

variable {aiDailyMessageLimit : Nat} {req : ChatRequest}

theorem withoutReply_keeps {result : Except HTTPException Conversations}
    (h : ∀ s', result = .ok s' → Keeps s s') : Keeps s (withoutReply s result).1 := by
  cases hresult : result with
  | error e => exact Keeps.refl s
  | ok s' => exact h s' hresult

theorem chat_keeps (s : Conversations) (user : CurrentUser) (now : Nat) (conversationId : Option Nat)
    (message : String) (turn : Turn) :
    Keeps s (chat aiDailyMessageLimit s user now conversationId message turn).1 := by
  unfold chat
  split
  next => exact Keeps.refl s
  next b hbegin =>
    obtain ⟨hbegan, -⟩ := beginTurn_ok hbegin
    cases turn with
    | answered rows reply metaJson usage calls =>
      dsimp only
      split
      · exact (kept_keeps hbegan rows).trans (finish_keeps _ _ _ _ _ _ _)
      · exact aborted_keeps hbegan rows
    | failed rows error detail usage calls =>
      dsimp only
      split
      · exact withdraw_keeps hbegan _ _ _
      · exact aborted_keeps hbegan rows
    | raised rows => exact aborted_keeps hbegan rows

/-- Nothing but a deletion takes from the messages. -/
theorem respond_keeps (hcall : ∀ conversationId, req.call ≠ .deleteConversation conversationId) :
    Keeps s (respond aiDailyMessageLimit s req).1 := by
  unfold respond
  cases hreq : req.call with
  | createConversation =>
    apply withoutReply_keeps
    intro s' h
    simp only [createConversation, bind_eq_ok, pure_eq_ok] at h
    obtain ⟨-, -, rfl⟩ := h
    exact insertConversation_keeps s req.user.id req.now ""
  | renameConversation conversationId title =>
    apply withoutReply_keeps
    intro s' h
    simp only [renameConversation, ownConversation, bind_eq_ok, pure_eq_ok, require_eq_ok, ensure_eq_ok] at h
    obtain ⟨_, ⟨convo, hget, -, howner, rfl⟩, rfl⟩ := h
    have hid : convo.id = conversationId := Table.id_of_get? hget
    refine ⟨rfl, List.Sublist.refl _, ?_⟩
    intro owner m howns
    obtain ⟨old, hold, howner'⟩ := owns_eq_true.mp howns
    apply owns_eq_true.mpr
    by_cases hsame : m.conversationId = conversationId
    · rw [hsame, hget] at hold
      cases hold
      refine ⟨{ convo with title := firstChars 200 (strip title), updatedAt := req.now }, ?_, howner'⟩
      rw [hsame, ← hid]
      exact Table.get?_put_self (a := convo) (by rw [← hid] at hget; exact hget)
    · refine ⟨old, ?_, howner'⟩
      rw [← hold]
      apply Table.get?_put_ne
      intro heq
      exact hsame (heq.trans hid)
  | deleteConversation conversationId => exact absurd hreq (hcall conversationId)
  | chat conversationId message turn => exact chat_keeps s _ _ _ _ _
  | note conversationId content metaJson =>
    apply withoutReply_keeps
    intro s' h
    simp only [bind_eq_ok, pure_eq_ok] at h
    obtain ⟨convo, -, rfl⟩ := h
    exact insertMessage_keeps s convo.id .assistant content metaJson req.now

/-- An answered message is counted from then on, and there was room for it. -/
theorem respond_answered (h : (respond aiDailyMessageLimit s req).2.isAnswered = true)
    (hlost : ∀ conversationId message reply metaJson usage calls,
      req.call ≠ .chat conversationId message (.answered .lost reply metaJson usage calls)) :
    (∀ from', recent s req.user.id from' + (if from' ≤ req.now then 1 else 0) ≤
        recent (respond aiDailyMessageLimit s req).1 req.user.id from') ∧
      ∀ access, s.access req.user.id = some access →
        ∀ limit, resolveDailyLimit aiDailyMessageLimit access = some limit →
          s.dailyUsed req.user.id req.now < limit := by
  have hnoreply : ∀ result, (withoutReply s result).2.isAnswered ≠ true := by
    intro result
    cases result with
    | error e => exact Bool.false_ne_true
    | ok s' => exact Bool.false_ne_true
  unfold respond at h ⊢
  cases hreq : req.call with
  | chat conversationId message turn =>
    rw [hreq] at h
    simp only [chat] at h ⊢
    cases hbegin : beginTurn aiDailyMessageLimit s req.user req.now conversationId message with
    | error e =>
      rw [hbegin] at h
      cases h
    | ok b =>
      rw [hbegin] at h
      obtain ⟨hbegan, hquota⟩ := beginTurn_ok hbegin
      refine ⟨?_, hquota⟩
      cases turn with
      | answered rows reply metaJson usage calls =>
        have hkept : b.kept s rows = b := by
          cases rows with
          | lost => exact absurd hreq (hlost conversationId message reply metaJson usage calls)
          | _ => rfl
        dsimp only at h ⊢
        by_cases hanswerable : b.answerable rows usage = true
        · rw [if_pos hanswerable, hkept]
          intro from'
          exact (hbegan.counted from').trans (recent_kept (finish_keeps b _ _ _ _ _ _) _ _)
        · rw [if_neg hanswerable] at h
          cases h
      | failed rows error detail usage calls =>
        dsimp only at h
        split at h
        · cases h
        · cases h
      | raised rows => cases h
  | _ =>
    rw [hreq] at h
    exact absurd h (hnoreply _)

/-- A deletion that the condition allows takes nothing of the last day. -/
theorem respond_deletes {conversationId : Nat} (hcall : req.call = .deleteConversation conversationId)
    (hold : ∀ m ∈ s.messages, m.conversationId = conversationId → m.role = .user →
      m.createdAt + days 1 < req.now) :
    (respond aiDailyMessageLimit s req).1.access = s.access ∧
      ∀ userId from', req.now ≤ from' + days 1 →
        recent s userId from' ≤ recent (respond aiDailyMessageLimit s req).1 userId from' := by
  unfold respond
  rw [hcall]
  simp only
  cases hresult : deleteConversation s req.user conversationId with
  | error e => exact ⟨rfl, fun userId from' _ => le_rfl⟩
  | ok s' =>
    simp only [deleteConversation, ownConversation, bind_eq_ok, pure_eq_ok, require_eq_ok,
      ensure_eq_ok] at hresult
    obtain ⟨_, ⟨convo, hget, -, howner, rfl⟩, rfl⟩ := hresult
    have hid : convo.id = conversationId := Table.id_of_get? hget
    refine ⟨rfl, ?_⟩
    intro userId from' hfrom
    apply recent_dropped
    intro m hm hin hrole
    have hbefore := hold m hm (hin.trans hid) hrole
    omega

/-- Whatever the request, if it meets the condition: who may ask stays, and so does what the last day counts. -/
theorem step_keeps {s' : Conversations} (hstep : ChatSteps aiDailyMessageLimit s req s')
    (hkeeps : KeepsRecent ⟨s, req, s'⟩) :
    s'.access = s.access ∧ ∀ userId from', req.now ≤ from' + days 1 →
      recent s userId from' ≤ recent s' userId from' := by
  obtain ⟨-, rfl⟩ := hstep
  by_cases hdelete : ∃ conversationId, req.call = .deleteConversation conversationId
  · obtain ⟨conversationId, hcall⟩ := hdelete
    exact respond_deletes hcall (hkeeps.deleted conversationId hcall)
  · have hrest : Keeps s (respond aiDailyMessageLimit s req).1 :=
      respond_keeps fun conversationId hcall => hdelete ⟨conversationId, hcall⟩
    exact ⟨hrest.access, fun userId from' _ => recent_kept hrest userId from'⟩

end

/-! ## A run -/

section

variable {aiDailyMessageLimit userId limit : Nat} {tr : List (Taken Conversations ChatRequest)}
  {s : Conversations}

theorem answeredTimes_cons (x : Taken Conversations ChatRequest) (tr : List (Taken Conversations ChatRequest)) :
    answeredTimes aiDailyMessageLimit userId (x :: tr) =
      if x.label.user.id = userId ∧ (respond aiDailyMessageLimit x.before x.label).2.isAnswered = true then
        x.label.now :: answeredTimes aiDailyMessageLimit userId tr
      else answeredTimes aiDailyMessageLimit userId tr := by
  unfold answeredTimes
  rw [List.filter_cons]
  simp only [Bool.and_eq_true, decide_eq_true_eq]
  split
  · rfl
  · rfl

/-- The messages that are there cover the answers, and each answer had room. -/
theorem answers_covered (h : ChatRun aiDailyMessageLimit tr s) (hkeeps : ∀ x ∈ tr, KeepsRecent x)
    (userId : Nat) :
    ∀ access, s.access userId = some access → ∀ limit,
      resolveDailyLimit aiDailyMessageLimit access = some limit →
        Covers (days 1) s.clock (recent s userId) (answeredTimes aiDailyMessageLimit userId tr) ∧
          Limited limit (days 1) (answeredTimes aiDailyMessageLimit userId tr) := by
  refine h.invariant_of_history (P := fun tr s => ∀ access, s.access userId = some access → ∀ limit,
    resolveDailyLimit aiDailyMessageLimit access = some limit →
      Covers (days 1) s.clock (recent s userId) (answeredTimes aiDailyMessageLimit userId tr) ∧
        Limited limit (days 1) (answeredTimes aiDailyMessageLimit userId tr)) ?_ ?_ hkeeps
  · intro s _ access _ limit _
    exact ⟨Covers.nil _ _ _, Limited.nil⟩
  · intro tr s req s' ih hstep hkeep access haccess limit hlimit
    obtain ⟨hsame, hrecent⟩ := step_keeps hstep hkeep
    rw [hsame] at haccess
    obtain ⟨hcovers, hlimited⟩ := ih access haccess limit hlimit
    obtain ⟨hclock, rfl⟩ := hstep
    rw [answeredTimes_cons]
    split
    next hanswer =>
      obtain ⟨huser, hanswered⟩ := hanswer
      subst huser
      obtain ⟨hcounted, hquota⟩ := respond_answered hanswered hkeep.lost
      refine ⟨hcovers.take hclock hcounted, Limited.cons (hcovers.room hclock ?_) hlimited⟩
      rw [← dailyUsed_eq]
      exact hquota access haccess limit hlimit
    next => exact ⟨hcovers.later hclock (hrecent userId), hlimited⟩

/-- In a run that deletes no conversation with a message of the last day, and in which no answered turn has
lost its message, no window of a day holds more answers than the limit of their user. -/
theorem daily_limit_holds (h : ChatRun aiDailyMessageLimit tr s) (hkeeps : ∀ x ∈ tr, KeepsRecent x)
    {access : ChatAccess} (haccess : s.access userId = some access)
    (hlimit : resolveDailyLimit aiDailyMessageLimit access = some limit) (start : Nat) :
    (answeredTimes aiDailyMessageLimit userId tr).countP (inWindow start (days 1)) ≤ limit :=
  (answers_covered h hkeeps userId access haccess limit hlimit).2.window_le start

end

/-! ## Deleted conversations -/

/-- One user, who may send one message a day. -/
def oneADay : Conversations where
  config := { enabled := true, allowWriteActions := true, maxUserChars := 4000 }
  serviceKey := "key"
  access := fun userId =>
    if userId = 1 then
      some { enabled := true, allowWriteActions := true, apiKey := "", dailyMessageLimit := 1 }
    else none
  conversations := Table.empty
  messages := Table.empty
  usage := []
  clock := 0

def asker : CurrentUser := ⟨1, "asker", .hr, none⟩

def asks (now : Nat) : ChatRequest := ⟨asker, now, .chat none "?" (.answered .pending "!" "" ⟨1, 0, 1⟩ 1)⟩

def deletes (now conversationId : Nat) : ChatRequest := ⟨asker, now, .deleteConversation conversationId⟩

def afterChat (s : Conversations) (req : ChatRequest) : Conversations :=
  { (respond 100 s req).1 with clock := req.now }

/-- A question, its conversation deleted some time later, and a question right after it. -/
def asksAgain (later : Nat) : List (Taken Conversations ChatRequest) :=
  replay afterChat oneADay [asks later, deletes later 1, asks 0]

theorem asksAgain_run (later : Nat) :
    ChatRun 100 (asksAgain later) (endState afterChat oneADay [asks later, deletes later 1, asks 0]) := by
  apply run_replay trivial
  intro x hx
  simp only [replay, List.mem_cons, List.not_mem_nil, or_false] at hx
  obtain rfl | rfl | rfl := hx
  · exact ⟨le_rfl, rfl⟩
  · exact ⟨Nat.zero_le later, rfl⟩
  · exact ⟨le_rfl, rfl⟩

theorem asks_after_two_days :
    (answeredTimes 100 1 (asksAgain (days 2))).length = 2 ∧
      ∀ start, (answeredTimes 100 1 (asksAgain (days 2))).countP (inWindow start (days 1)) ≤ 1 := by
  refine ⟨by decide, ?_⟩
  intro start
  refine daily_limit_holds (asksAgain_run (days 2)) ?_ rfl rfl start
  intro x hx
  simp only [asksAgain, replay, List.mem_cons, List.not_mem_nil, or_false] at hx
  obtain rfl | rfl | rfl := hx
  · exact ⟨(fun _ hcall => nomatch hcall), fun _ _ _ _ _ _ hcall => nomatch hcall⟩
  · refine ⟨?_, fun _ _ _ _ _ _ hcall => nomatch hcall⟩
    intro conversationId hcall m hm _ _
    have hold : ∀ m ∈ (endState afterChat oneADay [asks 0]).messages.rows, m.createdAt + days 1 < days 2 := by
      decide
    exact hold m hm
  · exact ⟨(fun _ hcall => nomatch hcall), fun _ _ _ _ _ _ hcall => nomatch hcall⟩

/-- The conversation is deleted at once, and the one message of the day is sent again. -/
theorem deletion_resets_the_limit :
    ¬∀ aiDailyMessageLimit tr s, ChatRun aiDailyMessageLimit tr s →
      ∀ userId access, s.access userId = some access →
        ∀ limit, resolveDailyLimit aiDailyMessageLimit access = some limit →
          ∀ start, (answeredTimes aiDailyMessageLimit userId tr).countP (inWindow start (days 1)) ≤ limit := by
  intro hclaim
  have hbound := hclaim 100 _ _ (asksAgain_run 0) 1 _ rfl 1 rfl 0
  revert hbound
  decide

end NexaHR
