import NexaHR.Properties.DailyLimit
import NexaHR.Services.ConversationMemory
import NexaHR.System.Installation

/-! # The memory of a conversation

A turn sees the last twelve messages before its own and a summary. The summary is only refreshed when six
messages are out of the window, and before the answer of its turn is kept, so that it always lags behind.

* `SeesAll`: each earlier message is in the window of the turn or covered by the summary.
* `Lags`: a summary that covers anything leaves out more messages than the window holds.
* `lags_run`: so it is in every run.
* `seesAll_iff`: a turn sees all earlier messages exactly when the window holds them all.
* `eighth_turn_forgets`: an eighth turn does not.
-/

namespace NexaHR

open Foundations

set_option autoImplicit false

abbrev MemoryRun (aiDailyMessageLimit : Nat) (tr : List (Taken Chats MemoryRequest)) (s : Chats) : Prop :=
  Run (fun s => s.summaries = (fun _ => {}) ∧ ∀ m ∈ s.rows.messages, 0 < m.id) (MemorySteps aiDailyMessageLimit)
    tr s

/-- Each message that is already in the conversation is sent to the model or covered by the summary. -/
def SeesAll (s : Chats) (b : Begun) : Prop :=
  ∀ m ∈ dialogue s.rows b.conversationId,
    m.id ≤ (s.summaries b.conversationId).throughMessageId ∨
      m ∈ historyRows b.rows b.conversationId b.messageId historyWindow

/-- The messages of a conversation after a key. -/
def messagesAfter (s : Conversations) (conversationId key : Nat) : Nat :=
  s.messages.rows.countP fun m => m.conversationId = conversationId && decide (key < m.id)

/-- A summary that covers anything leaves out more messages than the window holds. -/
def Lags (s : Chats) : Prop :=
  (∀ k, (s.summaries k).throughMessageId = 0 ∨
      historyWindow < messagesAfter s.rows k (s.summaries k).throughMessageId) ∧
    ∀ m ∈ s.rows.messages, 0 < m.id

section

variable {aiDailyMessageLimit : Nat} {s s' : Conversations} {k key : Nat}

/-! ## Dialogues -/

theorem mem_dialogue {m : AiMessage} : m ∈ dialogue s k ↔ m ∈ s.messages ∧ m.conversationId = k := by
  unfold dialogue
  rw [mem_sortedBy, List.mem_filter, decide_eq_true_eq]
  rfl

theorem dialogue_sorted (s : Conversations) (k : Nat) : (dialogue s k).Pairwise fun a b => a.id < b.id := by
  have hids : ((dialogue s k).map AiMessage.id).Nodup := by
    have hperm : (dialogue s k).Perm (s.messages.rows.filter fun m => m.conversationId = k) :=
      List.perm_insertionSort _ _
    rw [(hperm.map AiMessage.id).nodup_iff]
    exact s.messages.nodup.sublist (List.filter_sublist.map _)
  have hle := sorted_sortedBy AiMessage.id (s.messages.rows.filter fun m => m.conversationId = k)
  have hne : (dialogue s k).Pairwise fun a b => a.id ≠ b.id := List.pairwise_map.mp hids
  apply (hle.and hne).imp
  intro a b h
  omega

theorem countP_dialogue (s : Conversations) (k key : Nat) :
    (dialogue s k).countP (fun m => key < m.id) = messagesAfter s k key := by
  have hperm : (dialogue s k).Perm (s.messages.rows.filter fun m => m.conversationId = k) :=
    List.perm_insertionSort _ _
  rw [hperm.countP_eq, List.countP_filter]
  unfold messagesAfter
  simp only [Bool.and_comm]

theorem messagesAfter_mono (h : s.messages.rows.Sublist s'.messages.rows) :
    messagesAfter s k key ≤ messagesAfter s' k key :=
  h.countP_le

/-! ## What a request does to the messages -/

theorem mem_insertMessage {conversationId : Nat} {role : MessageRole} {content metaJson : String} {now : Nat}
    {m : AiMessage} : m ∈ (s.insertMessage conversationId role content metaJson now).messages ↔
      m ∈ s.messages ∨ m = newMessage conversationId role content metaJson now (s.messages.seq + 1) :=
  Table.mem_insert (newMessage_id conversationId role content metaJson now)

/-- A begun turn has added its message to those that were there. -/
theorem beginTurn_messages {user : CurrentUser} {now : Nat} {conversationId : Option Nat} {message : String}
    {b : Begun} (h : beginTurn aiDailyMessageLimit s user now conversationId message = .ok b) :
    ∃ text, b.messageId = s.messages.seq + 1 ∧
      b.rows.messages = (s.insertMessage b.conversationId .user text "" now).messages := by
  simp only [beginTurn, bind_eq_ok, pure_eq_ok] at h
  obtain ⟨_, -, _, -, _, -, _, -, ⟨opened, convo, wasNew⟩, hopen, rfl⟩ := h
  have hmessages : opened.messages = s.messages := by
    obtain ⟨-, ⟨-, rfl⟩ | ⟨-, -, rfl⟩⟩ := openConversation_ok hopen
    · rfl
    · rfl
  refine ⟨strip message, ?_, ?_⟩
  · simp only [hmessages]
  · simp only [Conversations.insertMessage, hmessages]

/-- The messages before the turn are the ones that it may look back on. -/
theorem historyRows_eq {user : CurrentUser} {now : Nat} {conversationId : Option Nat} {message : String}
    {b : Begun} (h : beginTurn aiDailyMessageLimit s user now conversationId message = .ok b) :
    historyRows b.rows b.conversationId b.messageId historyWindow =
      (dialogue s b.conversationId).rtake historyWindow := by
  obtain ⟨text, hkey, hmessages⟩ := beginTurn_messages h
  have hold : ∀ m ∈ s.messages.rows, m.id ≤ s.messages.seq := s.messages.le_seq
  have hmem : ∀ m, m ∈ (dialogue b.rows b.conversationId).filter (fun m => m.id ≠ b.messageId) ↔
      m ∈ dialogue s b.conversationId := by
    intro m
    rw [List.mem_filter, mem_dialogue, mem_dialogue, hmessages, mem_insertMessage, decide_eq_true_eq, hkey]
    constructor
    · rintro ⟨⟨hm | rfl, hin⟩, hne⟩
      · exact ⟨hm, hin⟩
      · exact absurd (newMessage_id ..) hne
    · intro ⟨hm, hin⟩
      have hle := hold m hm
      exact ⟨⟨Or.inl hm, hin⟩, by omega⟩
  have hsorted := (dialogue_sorted b.rows b.conversationId).sublist
    (List.filter_sublist (p := fun m => decide (m.id ≠ b.messageId)))
  have hsorted' := dialogue_sorted s b.conversationId
  have hperm : ((dialogue b.rows b.conversationId).filter fun m => m.id ≠ b.messageId).Perm
      (dialogue s b.conversationId) :=
    (List.perm_ext_iff_of_nodup (hsorted.imp (by grind)) (hsorted'.imp (by grind))).mpr hmem
  unfold historyRows
  rw [hperm.eq_of_pairwise (fun a b _ _ hab hba => absurd hab (by omega)) hsorted hsorted']

/-- Nothing but its deletion takes messages from a conversation. -/
theorem messages_kept {req : ChatRequest}
    (hstays : ((respond aiDailyMessageLimit s req).1.conversations.get? k).isSome = true) (key : Nat) :
    messagesAfter s k key ≤ messagesAfter (respond aiDailyMessageLimit s req).1 k key := by
  by_cases hdelete : ∃ conversationId, req.call = .deleteConversation conversationId
  · obtain ⟨conversationId, hcall⟩ := hdelete
    unfold respond at hstays ⊢
    rw [hcall] at hstays ⊢
    simp only at hstays ⊢
    cases hresult : deleteConversation s req.user conversationId with
    | error e => exact le_rfl
    | ok s' =>
      rw [hresult] at hstays
      simp only [deleteConversation, ownConversation, bind_eq_ok, pure_eq_ok, require_eq_ok, ensure_eq_ok] at hresult
      obtain ⟨_, ⟨convo, hget, -, -, rfl⟩, rfl⟩ := hresult
      have hother : k ≠ convo.id := by
        intro heq
        change ((s.conversations.filter fun c => c.id ≠ convo.id).get? k).isSome = true at hstays
        rw [Table.get?_filter] at hstays
        obtain ⟨c, hc⟩ := Option.isSome_iff_exists.mp hstays
        obtain ⟨hc, hne⟩ := Option.filter_eq_some_iff.mp hc
        rw [decide_eq_true_eq] at hne
        have hid : c.id = k := Table.id_of_get? hc
        exact hne (hid.trans heq)
      show _ ≤ (s.messages.rows.filter fun m => m.conversationId ≠ convo.id).countP _
      unfold messagesAfter
      rw [List.countP_filter]
      apply List.countP_mono_left
      intro m _ hm
      simp only [Bool.and_eq_true, decide_eq_true_eq] at hm ⊢
      exact ⟨hm, hm.1 ▸ hother⟩
  · exact messagesAfter_mono (respond_keeps fun conversationId hcall => hdelete ⟨conversationId, hcall⟩).rows

theorem withoutReply_messages {P : AiMessage → Prop} {result : Except HTTPException Conversations}
    (hold : ∀ m ∈ s.messages, P m) (h : ∀ s', result = .ok s' → ∀ m ∈ s'.messages, P m) :
    ∀ m ∈ (withoutReply s result).1.messages, P m := by
  cases hresult : result with
  | error e => exact hold
  | ok s' => exact h s' hresult

theorem insertMessage_pos {conversationId : Nat} {role : MessageRole} {content metaJson : String} {now : Nat}
    (h : ∀ m ∈ s.messages, 0 < m.id) :
    ∀ m ∈ (s.insertMessage conversationId role content metaJson now).messages, 0 < m.id := by
  intro m hm
  rcases mem_insertMessage.mp hm with hold | rfl
  · exact h m hold
  · exact Nat.succ_pos s.messages.seq

theorem withdraw_subset {b : Begun} {userId calls : Nat} {usage : TokenUsage} {m : AiMessage}
    (h : m ∈ (b.withdraw userId usage calls).messages) : m ∈ b.rows.messages := by
  unfold Begun.withdraw at h
  simp only at h
  split at h
  · exact (Table.mem_filter.mp (Table.mem_filter.mp h).1).1
  · exact (Table.mem_filter.mp h).1

/-- Keys are given out from 1. -/
theorem respond_pos {req : ChatRequest} (h : ∀ m ∈ s.messages, 0 < m.id) :
    ∀ m ∈ (respond aiDailyMessageLimit s req).1.messages, 0 < m.id := by
  unfold respond
  cases req.call with
  | createConversation =>
    apply withoutReply_messages h
    intro s' hs'
    simp only [createConversation, bind_eq_ok, pure_eq_ok] at hs'
    obtain ⟨-, -, rfl⟩ := hs'
    exact h
  | renameConversation conversationId title =>
    apply withoutReply_messages h
    intro s' hs'
    simp only [renameConversation, bind_eq_ok, pure_eq_ok] at hs'
    obtain ⟨_, -, rfl⟩ := hs'
    exact h
  | deleteConversation conversationId =>
    apply withoutReply_messages h
    intro s' hs' m hm
    simp only [deleteConversation, bind_eq_ok, pure_eq_ok] at hs'
    obtain ⟨_, -, rfl⟩ := hs'
    exact h m (Table.mem_filter.mp hm).1
  | note conversationId content metaJson =>
    apply withoutReply_messages h
    intro s' hs'
    simp only [bind_eq_ok, pure_eq_ok] at hs'
    obtain ⟨_, -, rfl⟩ := hs'
    exact insertMessage_pos h
  | chat conversationId message turn =>
    simp only
    unfold chat
    split
    next => exact h
    next b hbegin =>
      obtain ⟨text, -, hmessages⟩ := beginTurn_messages hbegin
      have hbegan : ∀ m ∈ b.rows.messages, 0 < m.id := by
        rw [hmessages]
        exact insertMessage_pos h
      have haborted : ∀ rows, ∀ m ∈ (b.aborted s rows).messages, 0 < m.id := by
        intro rows
        cases rows with
        | committed => exact hbegan
        | _ => exact h
      cases turn with
      | answered rows reply metaJson usage calls =>
        have hkept : ∀ m ∈ (b.kept s rows).rows.messages, 0 < m.id := by
          cases rows with
          | lost => exact h
          | _ => exact hbegan
        dsimp only
        split
        · exact insertMessage_pos hkept
        · exact haborted rows
      | failed rows error detail usage calls =>
        dsimp only
        split
        · exact fun m hm => hbegan m (withdraw_subset hm)
        · exact haborted rows
      | raised rows => exact haborted rows

/-! ## The summary lags -/

/-- What a refresh can do: nothing, or cover a message that has the whole window after it. -/
theorem refreshSummary_cases (s : Conversations) (summary : ConversationSummary) (k : Nat)
    (service : List ChatMessage → Option String) :
    refreshSummary s summary k historyWindow service = summary ∨
      ∃ m ∈ dialogue s k, (refreshSummary s summary k historyWindow service).throughMessageId = m.id ∧
        historyWindow ≤ messagesAfter s k m.id := by
  unfold refreshSummary
  simp only
  split
  · exact Or.inl rfl
  · split
    · rename_i content newest _ hnewest
      split
      · exact Or.inl rfl
      · have hpending := List.mem_of_getLast? hnewest
        have hbefore : newest ∈ (dialogue s k).rdrop historyWindow := (List.mem_filter.mp hpending).1
        refine Or.inr ⟨newest, (List.take_sublist _ _).subset hbefore, rfl, ?_⟩
        rw [← countP_dialogue]
        exact le_countP_after (dialogue_sorted s k) hbefore
    · exact Or.inl rfl

/-- The answer comes after everything that the summary of its turn can cover. -/
theorem finish_after {b : Begun} {userId now calls : Nat} {usage : TokenUsage} {reply metaJson : String}
    {m : AiMessage} (hm : m ∈ b.rows.messages) :
    messagesAfter b.rows b.conversationId m.id <
      messagesAfter (b.finish userId now reply metaJson usage calls) b.conversationId m.id := by
  have hle : m.id ≤ b.rows.messages.seq := b.rows.messages.le_seq m hm
  show _ < (b.rows.messages.rows ++ [newMessage b.conversationId .assistant reply metaJson now _]).countP _
  unfold messagesAfter
  rw [List.countP_append, List.countP_singleton, if_pos]
  · omega
  · simp only [newMessage, decide_true, Bool.true_and]
    apply decide_eq_true
    omega

theorem answeredTurn_eq {req : ChatRequest} {b : Begun} (h : answeredTurn aiDailyMessageLimit s req = some b) :
    ∃ reply metaJson usage calls,
      (respond aiDailyMessageLimit s req).1 = b.finish req.user.id req.now reply metaJson usage calls := by
  unfold answeredTurn beganTurn at h
  split at h
  · next conversationId message rows reply metaJson usage calls hcall =>
    rw [hcall] at h
    simp only at h
    obtain ⟨b', hfiltered, rfl⟩ := Option.map_eq_some_iff.mp h
    obtain ⟨hbegan, hanswerable⟩ := Option.filter_eq_some_iff.mp hfiltered
    cases hbegin : beginTurn aiDailyMessageLimit s req.user req.now conversationId message with
    | error e =>
      rw [hbegin] at hbegan
      cases hbegan
    | ok begun =>
      rw [hbegin] at hbegan
      cases hbegan
      refine ⟨reply, metaJson, usage, calls, ?_⟩
      unfold respond chat
      rw [hcall]
      simp only [hbegin, if_pos hanswerable]
  · cases h

theorem lags_step {s s' : Chats} {req : MemoryRequest} (h : Lags s)
    (hstep : MemorySteps aiDailyMessageLimit s req s') : Lags s' := by
  obtain ⟨-, rfl⟩ := hstep
  obtain ⟨hlags, hpos⟩ := h
  refine ⟨?_, respond_pos hpos⟩
  intro k
  have hkept (hstays : ((respond aiDailyMessageLimit s.rows req.request).1.conversations.get? k).isSome = true)
      (hsame : ((converse aiDailyMessageLimit s req).summaries k) = s.summaries k) :
      ((converse aiDailyMessageLimit s req).summaries k).throughMessageId = 0 ∨
        historyWindow < messagesAfter (converse aiDailyMessageLimit s req).rows k
          ((converse aiDailyMessageLimit s req).summaries k).throughMessageId := by
    rw [hsame]
    rcases hlags k with hzero | hlag
    · exact Or.inl hzero
    · exact Or.inr (hlag.trans_le (messages_kept hstays _))
  by_cases hgone : ((respond aiDailyMessageLimit s.rows req.request).1.conversations.get? k).isNone = true
  · left
    show (summariesAfter aiDailyMessageLimit s req _ k).throughMessageId = 0
    unfold summariesAfter
    rw [if_pos hgone]
  · have hstays : ((respond aiDailyMessageLimit s.rows req.request).1.conversations.get? k).isSome = true := by
      rw [← Option.not_isNone]
      simp [hgone]
    cases hanswered : answeredTurn aiDailyMessageLimit s.rows req.request with
    | none =>
      apply hkept hstays
      show summariesAfter aiDailyMessageLimit s req _ k = s.summaries k
      unfold summariesAfter
      rw [if_neg hgone, hanswered]
    | some b =>
      have hsummary : (converse aiDailyMessageLimit s req).summaries k =
          if b.conversationId = k then
            refreshSummary b.rows (s.summaries k) k historyWindow req.service
          else s.summaries k := by
        show summariesAfter aiDailyMessageLimit s req _ k = _
        unfold summariesAfter
        rw [if_neg hgone, hanswered]
      by_cases hk : b.conversationId = k
      · rw [if_pos hk] at hsummary
        rcases refreshSummary_cases b.rows (s.summaries k) k req.service with hsame | ⟨m, hm, hthrough, hwindow⟩
        · exact hkept hstays (hsummary.trans hsame)
        · right
          obtain ⟨reply, metaJson, usage, calls, hrows⟩ := answeredTurn_eq hanswered
          rw [hsummary, hthrough]
          show _ < messagesAfter (respond aiDailyMessageLimit s.rows req.request).1 k m.id
          rw [hrows, ← hk]
          rw [← hk] at hwindow
          exact hwindow.trans_lt (finish_after (mem_dialogue.mp hm).1)
      · rw [if_neg hk] at hsummary
        exact hkept hstays hsummary

theorem lags_run {tr : List (Taken Chats MemoryRequest)} {s : Chats} (h : MemoryRun aiDailyMessageLimit tr s) :
    Lags s := by
  refine h.invariant ?_ fun _ _ _ => lags_step
  intro s ⟨hempty, hpos⟩
  refine ⟨?_, hpos⟩
  intro k
  left
  rw [hempty]

/-! ## What a turn sees -/

theorem beganTurn_eq {req : ChatRequest} {b : Begun} (h : beganTurn aiDailyMessageLimit s req = some b) :
    ∃ conversationId message, beginTurn aiDailyMessageLimit s req.user req.now conversationId message = .ok b := by
  unfold beganTurn at h
  split at h
  · rename_i conversationId message _ _
    refine ⟨conversationId, message, ?_⟩
    cases hbegin : beginTurn aiDailyMessageLimit s req.user req.now conversationId message with
    | error e =>
      rw [hbegin] at h
      cases h
    | ok b' =>
      rw [hbegin] at h
      cases h
      rfl
  · cases h

/-- The messages that no summary covers are all in the window only if it has room for them. -/
theorem uncovered_le {s : Chats} {req : ChatRequest} {b : Begun}
    (hbegan : beganTurn aiDailyMessageLimit s.rows req = some b) (h : SeesAll s b) :
    messagesAfter s.rows b.conversationId (s.summaries b.conversationId).throughMessageId ≤ historyWindow := by
  obtain ⟨conversationId, message, hbegin⟩ := beganTurn_eq hbegan
  rw [← countP_dialogue]
  apply countP_le_of_recent ((dialogue_sorted s.rows b.conversationId).imp (by grind))
  intro m hm hafter
  rw [← historyRows_eq hbegin]
  rcases h m hm with hcovered | hrecent
  · have hlater := of_decide_eq_true hafter
    omega
  · exact hrecent

/-- In every run a turn sees all messages of its conversation exactly when they fit into its window. -/
theorem seesAll_iff {tr : List (Taken Chats MemoryRequest)} {s : Chats}
    (h : MemoryRun aiDailyMessageLimit tr s) :
    ∀ x ∈ tr, ∀ b, beganTurn aiDailyMessageLimit x.before.rows x.label.request = some b →
      (SeesAll x.before b ↔ (dialogue x.before.rows b.conversationId).length ≤ historyWindow) := by
  intro x hx b hbegan
  obtain ⟨⟨old, hold, -⟩, -⟩ := h.step_of_mem hx
  obtain ⟨hlags, hpos⟩ := lags_run hold
  obtain ⟨conversationId, message, hbegin⟩ := beganTurn_eq hbegan
  constructor
  · intro hsees
    have hle := uncovered_le hbegan hsees
    rcases hlags b.conversationId with hzero | hlag
    · rw [hzero, ← countP_dialogue, List.countP_eq_length.mpr] at hle
      · exact hle
      · intro m hm
        exact decide_eq_true (hpos m (mem_dialogue.mp hm).1)
    · omega
  · intro hfits m hm
    right
    rw [historyRows_eq hbegin, rtake_eq_self hfits]
    exact hm

end

/-! ## The eighth turn -/

/-- The assistant is switched on, nobody has asked it yet, and the usual limit holds. -/
def unusedAssistant : Chats where
  rows :=
    { oneADay with
      access := fun _ => some { enabled := true, allowWriteActions := true, apiKey := "", dailyMessageLimit := 0 } }
  summaries := fun _ => {}

/-- A turn with a given service for summaries, in a new conversation or in the first one. -/
def turnIn (conversationId : Option Nat) (service : List ChatMessage → Option String) : MemoryRequest :=
  ⟨⟨asker, 0, .chat conversationId "?" (.answered .pending "!" "" ⟨1, 0, 1⟩ 1)⟩, service⟩

/-- One conversation, and the number of turns after its first. -/
def turnsOf (more : Nat) : List MemoryRequest :=
  List.replicate more (turnIn (some 1) fun _ => some "S") ++ [turnIn none fun _ => some "S"]

theorem memoryRun_replay {s : Chats} {reqs : List MemoryRequest} (hempty : s.summaries = fun _ => {})
    (hpos : ∀ m ∈ s.rows.messages, 0 < m.id)
    (hclock : ((replay (converse 100) s reqs).all fun x => x.before.rows.clock ≤ x.label.request.now) = true) :
    MemoryRun 100 (replay (converse 100) s reqs) (endState (converse 100) s reqs) := by
  apply run_replay ⟨hempty, hpos⟩
  intro x hx
  exact ⟨of_decide_eq_true (List.all_eq_true.mp hclock x hx), after_replay hx⟩

theorem turnsOf_run {more : Nat}
    (hclock : ((replay (converse 100) unusedAssistant (turnsOf more)).all
      fun x => x.before.rows.clock ≤ x.label.request.now) = true) :
    MemoryRun 100 (replay (converse 100) unusedAssistant (turnsOf more))
      (endState (converse 100) unusedAssistant (turnsOf more)) :=
  memoryRun_replay rfl (fun _ hm => absurd hm (Table.not_mem_empty _)) hclock

/-- Twelve messages come before the seventh turn. -/
theorem seven_turns_see_all :
    ∃ x ∈ replay (converse 100) unusedAssistant (turnsOf 6), ∃ b,
      beganTurn 100 x.before.rows x.label.request = some b ∧
        (dialogue x.before.rows b.conversationId).length = historyWindow ∧ SeesAll x.before b := by
  have hnewest : (replay (converse 100) unusedAssistant (turnsOf 6)).head?.any (fun x =>
      (beganTurn 100 x.before.rows x.label.request).any fun b =>
        (dialogue x.before.rows b.conversationId).length = historyWindow) = true := by
    decide
  obtain ⟨x, hx, hbegan⟩ := exists_of_any hnewest
  obtain ⟨b, hbegan, hlength⟩ := exists_of_any hbegan
  have hwindow := of_decide_eq_true hlength
  refine ⟨x, List.mem_of_head? hx, b, hbegan, hwindow, ?_⟩
  exact (seesAll_iff (turnsOf_run (by decide)) x (List.mem_of_head? hx) b hbegan).mpr (Nat.le_of_eq hwindow)

/-- Fourteen messages come before the eighth turn, and nothing is folded yet. -/
theorem eighth_turn_forgets : ¬ ∀ aiDailyMessageLimit tr s, MemoryRun aiDailyMessageLimit tr s →
    ∀ x ∈ tr, ∀ b, beganTurn aiDailyMessageLimit x.before.rows x.label.request = some b → SeesAll x.before b := by
  intro hclaim
  have hrun : MemoryRun 100 _ _ := @turnsOf_run 7 (by decide)
  have hnewest : (replay (converse 100) unusedAssistant (turnsOf 7)).head?.any (fun x =>
      (beganTurn 100 x.before.rows x.label.request).any fun b =>
        historyWindow < messagesAfter x.before.rows b.conversationId
          (x.before.summaries b.conversationId).throughMessageId) = true := by
    decide
  obtain ⟨x, hx, hbegan⟩ := exists_of_any hnewest
  obtain ⟨b, hbegan, hmany⟩ := exists_of_any hbegan
  have hle := uncovered_le hbegan (hclaim 100 _ _ hrun x (List.mem_of_head? hx) b hbegan)
  have hlt := of_decide_eq_true hmany
  omega

end NexaHR
