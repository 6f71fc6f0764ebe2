import NexaHR.Foundations.Exchange
import NexaHR.Services.Orchestrator

/-! # Every call of the model has its answer

A service refuses a conversation in which a call of the model is not answered exactly once before the model
speaks again. The loop answers every call. Still two calls of one reply may have the same key: the service gave
it twice, or a call without a key got the key of another one. So the conversation is well formed exactly as
long as the keys of a reply are distinct.

* `AllAnswered`: a conversation in which every call has its one answer.
* `CallPasses`, `CallsPass`: no call raises an error that the loop does not know.
* `answerCalls_cases`: what the calls of a reply leave behind them.
* `ReplyFine`: the replies that the loop can answer.
* `run_turn_protocol`: the requests of a turn, and how many there are.
-/

namespace NexaHR

open Foundations

set_option autoImplicit false

def AllAnswered (messages : List TurnMessage) : Prop := Answered TurnMessage.issued TurnMessage.answered messages

instance decidableAllAnswered (messages : List TurnMessage) : Decidable (AllAnswered messages) :=
  decidableAnswered _ _ messages

/-! ## The answers of a reply -/

/-- From `t` to `t'` only answers were given, and those are the answers to `calls`. -/
structure AnswersGiven (calls : List ToolCall) (t t' : TurnState) : Prop where
  messages : ∃ given : List TurnMessage, t'.messages = t.messages ++ given ∧
    given.filterMap TurnMessage.answered = calls.map ToolCall.id ∧ ∀ m ∈ given, m.issued = none
  requests : t'.requests = t.requests
  fallbackMode : t'.fallbackMode = t.fallbackMode
  usage : t'.usage = t.usage
  status : t'.status = t.status

namespace AnswersGiven

theorem none (t : TurnState) : AnswersGiven [] t t :=
  ⟨⟨[], (List.append_nil _).symm, rfl, fun _ hm => absurd hm List.not_mem_nil⟩, rfl, rfl, rfl, rfl⟩

theorem cons {call : ToolCall} {calls : List ToolCall} {t t' t'' : TurnState} (h : AnswersGiven [call] t t')
    (h' : AnswersGiven calls t' t'') : AnswersGiven (call :: calls) t t'' := by
  obtain ⟨given, hmessages, hanswered, hnone⟩ := h.messages
  obtain ⟨given', hmessages', hanswered', hnone'⟩ := h'.messages
  refine ⟨⟨given ++ given', ?_, ?_, ?_⟩, ?_, ?_, ?_, ?_⟩
  · rw [hmessages', hmessages, List.append_assoc]
  · rw [List.filterMap_append, hanswered, hanswered']
    rfl
  · intro m hm
    cases List.mem_append.mp hm with
    | inl hm => exact hnone m hm
    | inr hm => exact hnone' m hm
  · exact h'.requests.trans h.requests
  · exact h'.fallbackMode.trans h.fallbackMode
  · exact h'.usage.trans h.usage
  · exact h'.status.trans h.status

end AnswersGiven

/-- From `t` to `t'` no request was sent, and nothing of the conversation was taken back. -/
structure Continues (t t' : TurnState) : Prop where
  messages : ∃ said : List TurnMessage, t'.messages = t.messages ++ said
  requests : t'.requests = t.requests
  usage : t'.usage = t.usage

namespace Continues

theorem refl (t : TurnState) : Continues t t := ⟨⟨[], (List.append_nil _).symm⟩, rfl, rfl⟩

theorem trans {t t' t'' : TurnState} (h : Continues t t') (h' : Continues t' t'') : Continues t t'' := by
  obtain ⟨said, hsaid⟩ := h.messages
  obtain ⟨said', hsaid'⟩ := h'.messages
  refine ⟨⟨said ++ said', ?_⟩, h'.requests.trans h.requests, h'.usage.trans h.usage⟩
  rw [hsaid', hsaid, List.append_assoc]

end Continues

theorem AnswersGiven.continues {calls : List ToolCall} {t t' : TurnState} (h : AnswersGiven calls t t') :
    Continues t t' := by
  obtain ⟨given, hmessages, -, -⟩ := h.messages
  exact ⟨⟨given, hmessages⟩, h.requests, h.usage⟩

/-- From `t` to `t'` an error has left the loop that it does not know. -/
structure BrokenOff (t t' : TurnState) : Prop extends Continues t t' where
  status : ∃ e, t'.status = .broken (.raised e)

theorem BrokenOff.breakOff {t t' : TurnState} (hmessages : t'.messages = t.messages)
    (hrequests : t'.requests = t.requests) (husage : t'.usage = t.usage) (e : PyError) :
    BrokenOff t (t'.breakOff (.raised e)) :=
  ⟨⟨⟨[], hmessages.trans (List.append_nil _).symm⟩, hrequests, husage⟩, ⟨e, rfl⟩⟩

section

variable (w : TurnWorld)

/-- A call itself touches neither the conversation nor the loop. -/
theorem executeCall_eq (t : TurnState) (spec : ToolSpec) (arguments : Fields) :
    ∃ actions steps cards, (w.executeCall t spec arguments).1 =
      { t with actions := actions, steps := steps, createdPending := cards } := by
  unfold TurnWorld.executeCall
  split
  · split
    · exact ⟨_, _, _, rfl⟩
    · split
      · exact ⟨_, _, _, rfl⟩
      · exact ⟨_, _, _, rfl⟩
  · split
    · exact ⟨_, _, _, rfl⟩
    · exact ⟨_, _, _, rfl⟩

/-- The arguments are read unless they are nested too deep. -/
theorem parseArguments_isOk {raw : String} : (∃ parsed, w.parseArguments raw = .ok parsed) ↔
    (strip raw ≠ "" → w.py.loads (strip raw) ≠ .tooDeep) := by
  unfold TurnWorld.parseArguments
  dsimp only
  by_cases hblank : strip raw = ""
  · rw [if_pos hblank]
    exact iff_of_true ⟨_, rfl⟩ fun hnot => absurd hblank hnot
  · rw [if_neg hblank, forall_prop_of_true hblank]
    cases w.py.loads (strip raw) with
    | invalid => exact iff_of_true ⟨_, rfl⟩ nofun
    | tooDeep => exact iff_of_false (fun ⟨_, h⟩ => nomatch h) fun hnot => hnot rfl
    | value parsed =>
      refine iff_of_true ?_ nofun
      cases parsed with
      | dict arguments => exact ⟨_, rfl⟩
      | _ => exact ⟨_, rfl⟩

/-- A call of a known tool has arguments that are not nested too deep, and its entry can be written. -/
def CallPasses (t : TurnState) (call : ToolCall) : Prop :=
  ∀ spec, getTool w.registry call.name = some spec →
    (strip call.argumentsJson ≠ "" → w.py.loads (strip call.argumentsJson) ≠ .tooDeep) ∧
      ∀ arguments, w.parseArguments call.argumentsJson = .ok (.ok arguments) →
        w.writeEntry t.handled spec arguments = .ok ()

def CallsPass (t : TurnState) : List ToolCall → Prop
  | [] => True
  | call :: calls => CallPasses w t call ∧ CallsPass (w.answerCall t call) calls

/-- A call is answered, or it raises an error that ends the turn. -/
theorem answerCall_cases (t : TurnState) (call : ToolCall) :
    (CallPasses w t call ∧ AnswersGiven [call] t (w.answerCall t call)) ∨
      (¬CallPasses w t call ∧ BrokenOff t (w.answerCall t call)) := by
  unfold TurnWorld.answerCall CallPasses
  cases htool : getTool w.registry call.name with
  | none =>
    refine .inl ⟨nofun, ?_⟩
    exact ⟨⟨_, rfl, rfl, by simp [TurnMessage.issued]⟩, rfl, rfl, rfl, rfl⟩
  | some spec =>
    rw [← parseArguments_isOk]
    cases hparse : w.parseArguments call.argumentsJson with
    | error e =>
      refine .inr ⟨?_, BrokenOff.breakOff rfl rfl rfl e⟩
      intro hpasses
      obtain ⟨parsed, hparsed⟩ := (hpasses spec rfl).1
      cases hparsed
    | ok parsed =>
      cases parsed with
      | error e =>
        refine .inl ⟨fun _ _ => ⟨⟨_, rfl⟩, fun arguments hread => nomatch hread⟩, ?_⟩
        exact ⟨⟨_, rfl, rfl, by simp [TurnMessage.issued]⟩, rfl, rfl, rfl, rfl⟩
      | ok arguments =>
        dsimp only
        cases hentry : w.writeEntry t.handled spec arguments with
        | error e =>
          refine .inr ⟨?_, ?_⟩
          · intro hpasses
            have hwritten := (hpasses spec rfl).2 arguments rfl
            rw [hentry] at hwritten
            cases hwritten
          · dsimp only
            split
            · exact @BrokenOff.breakOff t (t.settle true) rfl rfl rfl e
            · exact BrokenOff.breakOff rfl rfl rfl e
        | ok written =>
          refine .inl ⟨?_, ?_⟩
          · intro spec' hspec
            cases hspec
            refine ⟨⟨_, rfl⟩, ?_⟩
            intro arguments' hread
            cases hread
            exact hentry
          · dsimp only
            obtain ⟨actions, steps, cards, heq⟩ := executeCall_eq w (t.settle _) spec arguments
            split
            · next t' e hcall =>
              rw [hcall] at heq
              cases heq
              exact ⟨⟨_, rfl, rfl, by simp [TurnMessage.issued]⟩, rfl, rfl, rfl, rfl⟩
            · next t' text hcall =>
              rw [hcall] at heq
              cases heq
              exact ⟨⟨_, rfl, rfl, by simp [TurnMessage.issued]⟩, rfl, rfl, rfl, rfl⟩

theorem answerNext_running {t : TurnState} (h : t.status = .running) (call : ToolCall) :
    w.answerNext t call = w.answerCall t call := by
  unfold TurnWorld.answerNext
  rw [h]

/-- After an error no call is looked at. -/
theorem answerCalls_stopped (calls : List ToolCall) {t : TurnState} (h : t.status ≠ .running) :
    calls.foldl w.answerNext t = t := by
  induction calls with
  | nil => rfl
  | cons call calls ih =>
    have hsame : w.answerNext t call = t := by
      unfold TurnWorld.answerNext
      split
      · next hrunning => exact absurd hrunning h
      · rfl
    rw [List.foldl_cons, hsame]
    exact ih

/-- The calls of a reply are answered one after the other, up to an error that ends the turn. -/
theorem answerCalls_cases (calls : List ToolCall) {t : TurnState} (h : t.status = .running) :
    (CallsPass w t calls ∧ AnswersGiven calls t (calls.foldl w.answerNext t)) ∨
      (¬CallsPass w t calls ∧ BrokenOff t (calls.foldl w.answerNext t)) := by
  induction calls generalizing t with
  | nil => exact .inl ⟨trivial, AnswersGiven.none t⟩
  | cons call calls ih =>
    rw [List.foldl_cons, answerNext_running w h]
    rcases answerCall_cases w t call with ⟨hpasses, hgiven⟩ | ⟨hnot, hbroken⟩
    · rcases ih (hgiven.status.trans h) with ⟨hrest, hgiven'⟩ | ⟨hnot, hbroken⟩
      · exact .inl ⟨⟨hpasses, hrest⟩, AnswersGiven.cons hgiven hgiven'⟩
      · exact .inr ⟨fun hboth => hnot hboth.2,
          ⟨Continues.trans hgiven.continues hbroken.toContinues, hbroken.status⟩⟩
    · obtain ⟨e, hstatus⟩ := hbroken.status
      have hstopped : (w.answerCall t call).status ≠ .running := by
        rw [hstatus]
        nofun
      rw [answerCalls_stopped w calls hstopped]
      exact .inr ⟨fun hboth => hnot hboth.1, hbroken⟩

theorem answerCalls_continues (calls : List ToolCall) (t : TurnState) :
    Continues t (calls.foldl w.answerNext t) := by
  by_cases hrunning : t.status = .running
  · rcases answerCalls_cases w calls hrunning with ⟨-, hgiven⟩ | ⟨-, hbroken⟩
    · exact hgiven.continues
    · exact hbroken.toContinues
  · rw [answerCalls_stopped w calls hrunning]
    exact Continues.refl t

/-! ## A reply -/

/-- In its own calls the model has given no key twice. Blocks may stand without a text; then their keys are not
those of the calls before. A reply that was cut is not executed, and one of whose calls raises an error ends the
turn. -/
def ReplyFine (t : TurnState) (response : ModelResponse) : Prop :=
  response.truncated = false → ∀ calls, w.callsOfReply t response = .ok calls →
    CallsPass w (t.spoken response calls) calls →
      if t.fallbackMode then
        visibleText response = "" →
          ∀ k ∈ openKeys TurnMessage.issued t.messages, k ∉ calls.map ToolCall.id
      else (calls.map ToolCall.id).Nodup

theorem replyFine_of_calls {t : TurnState} {response : ModelResponse} {calls : List ToolCall}
    (hcut : response.truncated = false) (hcalls : w.callsOfReply t response = .ok calls)
    (hpass : CallsPass w (t.spoken response calls) calls) : ReplyFine w t response ↔
      if t.fallbackMode then
        visibleText response = "" →
          ∀ k ∈ openKeys TurnMessage.issued t.messages, k ∉ calls.map ToolCall.id
      else (calls.map ToolCall.id).Nodup := by
  constructor
  · intro hfine
    exact hfine hcut calls hcalls hpass
  · intro hkeys _ calls' hcalls' _
    rw [hcalls] at hcalls'
    cases hcalls'
    exact hkeys

/-- What the calls of a reply leave is well formed for the distinct keys of `ReplyFine`. -/
theorem answered_after_calls {t t' : TurnState} {response : ModelResponse} {calls : List ToolCall}
    (hanswered : AllAnswered t.messages) (hcut : response.truncated = false)
    (hcalls : w.callsOfReply t response = .ok calls) (hpass : CallsPass w (t.spoken response calls) calls)
    (hgiven : AnswersGiven calls (t.spoken response calls) t') :
    AllAnswered t'.messages ↔ ReplyFine w t response := by
  obtain ⟨given, hmessages, hids, hnone⟩ := hgiven.messages
  rw [replyFine_of_calls w hcut hcalls hpass, hmessages]
  unfold TurnState.spoken
  by_cases hmode : t.fallbackMode = true
  · rw [if_pos hmode, if_pos hmode]
    by_cases htext : visibleText response = ""
    · rw [if_pos htext, forall_prop_of_true htext]
      unfold AllAnswered
      rw [answered_append hanswered hnone, hids]
    · rw [if_neg htext]
      have hopens : (TurnMessage.plain ⟨.assistant, visibleText response⟩).issued = some [] := rfl
      show AllAnswered (t.messages ++ [_] ++ given) ↔ _
      unfold AllAnswered
      rw [List.append_assoc, List.singleton_append, answered_open hopens hnone]
      exact iff_of_true ⟨hanswered, fun k hk => absurd hk List.not_mem_nil⟩ fun h => absurd h htext
  · rw [if_neg hmode, if_neg hmode]
    have hopens : (TurnMessage.calling response.content calls).issued = some (calls.map ToolCall.id) := rfl
    show AllAnswered (t.messages ++ [_] ++ given) ↔ _
    unfold AllAnswered
    rw [List.append_assoc, List.singleton_append, answered_open hopens hnone, hids, List.nodup_iff_count_eq_one]
    exact and_iff_right hanswered

theorem replyFine_of_no_calls {t : TurnState} {response : ModelResponse}
    (h : w.callsOfReply t response = .ok []) : ReplyFine w t response := by
  intro _ calls hcalls _
  rw [h] at hcalls
  cases hcalls
  split
  · exact fun _ k _ => List.not_mem_nil
  · exact List.nodup_nil

/-- The turn is over, and the conversation is as it was. -/
structure Over (t t' : TurnState) : Prop where
  messages : t'.messages = t.messages
  requests : t'.requests = t.requests
  usage : t'.usage = t.usage
  status : t'.status ≠ .running

/-- A reply ends the turn, or its calls are answered. -/
theorem handleReply_cases (t : TurnState) (response : ModelResponse) :
    Over t (w.handleReply t response) ∨
      ∃ first others, w.callsOfReply t response = .ok (first :: others) ∧ response.truncated = false ∧
        w.handleReply t response = (first :: others).foldl w.answerNext (t.spoken response (first :: others)) := by
  unfold TurnWorld.handleReply
  split
  · exact .inl ⟨rfl, rfl, rfl, fun h => nomatch h⟩
  · split
    · exact .inl ⟨rfl, rfl, rfl, fun h => nomatch h⟩
    · split
      · exact .inl ⟨rfl, rfl, rfl, fun h => nomatch h⟩
      · exact .inl ⟨rfl, rfl, rfl, fun h => nomatch h⟩
    · next first others hcalls =>
      cases hcut : response.truncated with
      | true => exact .inl ⟨rfl, rfl, rfl, fun h => nomatch h⟩
      | false => exact .inr ⟨first, others, hcalls, rfl, rfl⟩

/-- A reply that is no text is not searched for blocks, and there is nothing in it to be fine. -/
theorem replyFine_of_no_text {t : TurnState} {response : ModelResponse} (hmode : t.fallbackMode = true)
    (htext : response.content.isText = false) : ReplyFine w t response := by
  have hempty : response.text = "" := by
    unfold ModelResponse.text
    split
    · next s hcontent =>
      rw [hcontent] at htext
      cases htext
    · rfl
  apply replyFine_of_no_calls
  unfold TurnWorld.callsOfReply fallbackCalls
  rw [if_pos hmode, hempty]
  rfl

/-- The cases in which a reply ends the turn are no matter for its keys. -/
theorem replyFine_of_over {t : TurnState} {response : ModelResponse}
    (h : (t.fallbackMode && !response.content.isText) = true ∨ (∃ e, w.callsOfReply t response = .error e) ∨
      w.callsOfReply t response = .ok [] ∨ response.truncated = true) : ReplyFine w t response := by
  rcases h with h | h | h | h
  · rw [Bool.and_eq_true, Bool.not_eq_true'] at h
    exact replyFine_of_no_text w h.1 h.2
  · obtain ⟨e, herror⟩ := h
    intro _ calls hcalls _
    rw [herror] at hcalls
    cases hcalls
  · exact replyFine_of_no_calls w h
  · intro hcut
    rw [h] at hcut
    cases hcut

theorem spoken_status (t : TurnState) (response : ModelResponse) (calls : List ToolCall) :
    (t.spoken response calls).status = t.status := by
  unfold TurnState.spoken
  split
  · split
    · rfl
    · rfl
  · rfl

/-- Where the loop goes on after a reply, the conversation is well formed exactly for a reply that is fine. -/
theorem handleReply_answered {t : TurnState} {response : ModelResponse} (hanswered : AllAnswered t.messages)
    (hrunning : t.status = .running) :
    ((w.handleReply t response).status = .running → AllAnswered (w.handleReply t response).messages) ↔
      ReplyFine w t response := by
  unfold TurnWorld.handleReply
  by_cases htext : (t.fallbackMode && !response.content.isText) = true
  · rw [if_pos htext]
    exact iff_of_true (fun h => nomatch h) (replyFine_of_over w (.inl htext))
  · rw [if_neg htext]
    cases hcalls : w.callsOfReply t response with
    | error e => exact iff_of_true (fun h => nomatch h) (replyFine_of_over w (.inr (.inl ⟨e, hcalls⟩)))
    | ok calls =>
      cases calls with
      | nil =>
        refine iff_of_true ?_ (replyFine_of_over w (.inr (.inr (.inl hcalls))))
        dsimp only
        split
        · exact fun h => nomatch h
        · exact fun h => nomatch h
      | cons first others =>
        cases hcut : response.truncated with
        | true => exact iff_of_true (fun h => nomatch h) (replyFine_of_over w (.inr (.inr (.inr hcut))))
        | false =>
          have hspoken := (spoken_status t response (first :: others)).trans hrunning
          show ((first :: others).foldl w.answerNext _).status = .running → _ ↔ _
          rcases answerCalls_cases w (first :: others) hspoken with ⟨hpass, hgiven⟩ | ⟨hnot, hbroken⟩
          · rw [forall_prop_of_true (hgiven.status.trans hspoken)]
            exact answered_after_calls w hanswered hcut hcalls hpass hgiven
          · obtain ⟨e, hstatus⟩ := hbroken.status
            rw [hstatus]
            refine iff_of_true (fun h => nomatch h) ?_
            intro _ calls hagain hpass
            rw [hcalls] at hagain
            cases hagain
            exact absurd hpass hnot

theorem spoken_requests (t : TurnState) (response : ModelResponse) (calls : List ToolCall) :
    (t.spoken response calls).requests = t.requests := by
  unfold TurnState.spoken
  split
  · split
    · rfl
    · rfl
  · rfl

theorem handleReply_requests (t : TurnState) (response : ModelResponse) :
    (w.handleReply t response).requests = t.requests := by
  cases handleReply_cases w t response with
  | inl hover => exact hover.requests
  | inr hcalls =>
    obtain ⟨first, others, -, -, heq⟩ := hcalls
    rw [heq, (answerCalls_continues w (first :: others) _).requests, spoken_requests]

theorem spoken_messages (t : TurnState) (response : ModelResponse) (calls : List ToolCall) :
    ∃ said, (t.spoken response calls).messages = t.messages ++ said := by
  unfold TurnState.spoken
  split
  · split
    · exact ⟨[], (List.append_nil _).symm⟩
    · exact ⟨_, rfl⟩
  · exact ⟨_, rfl⟩

theorem handleReply_messages (t : TurnState) (response : ModelResponse) :
    ∃ said, (w.handleReply t response).messages = t.messages ++ said := by
  cases handleReply_cases w t response with
  | inl hover => exact ⟨[], hover.messages.trans (List.append_nil _).symm⟩
  | inr hcalls =>
    obtain ⟨first, others, -, -, heq⟩ := hcalls
    obtain ⟨said, hsaid⟩ := spoken_messages t response (first :: others)
    obtain ⟨given, hgiven⟩ :=
      (answerCalls_continues w (first :: others) (t.spoken response (first :: others))).messages
    rw [heq, hgiven, hsaid]
    exact ⟨said ++ given, List.append_assoc _ _ _⟩

/-! ## The requests of a round -/

/-- The conversation begins with the instructions, or with anything that makes no calls. -/
def Headed (messages : List TurnMessage) : Prop := ∃ head rest, messages = head :: rest ∧ head.issued = none

theorem Headed.append {messages said : List TurnMessage} (h : Headed messages) : Headed (messages ++ said) := by
  obtain ⟨head, rest, rfl, hnone⟩ := h
  exact ⟨head, rest ++ said, rfl, hnone⟩

/-- From `t` to `t'` at most two requests were sent, with conversations that are as good as that of `t`. -/
structure Asked (t t' : TurnState) : Prop where
  requests : ∃ sent : List TurnRequest, t'.requests = t.requests ++ sent ∧ sent.length ≤ 2 ∧
    ((∀ request ∈ sent, AllAnswered request.messages) ↔ AllAnswered t.messages)
  headed : Headed t'.messages
  answered : AllAnswered t'.messages ↔ AllAnswered t.messages
  status : t'.status = t.status

theorem asked_once {t : TurnState} (h : Headed t.messages) (tools : List ToolSpec) (toolChoiceNone : Bool) :
    Asked t (w.send t tools toolChoiceNone).1 :=
  ⟨⟨[_], rfl, Nat.le_succ 1, List.forall_mem_singleton⟩, h, Iff.rfl, rfl⟩

/-- Other instructions make no difference. -/
theorem fallen_answered {t : TurnState} (h : Headed t.messages) :
    AllAnswered (w.fallen t).messages ↔ AllAnswered t.messages := by
  obtain ⟨head, rest, hmessages, hnone⟩ := h
  have hsystem : (w.systemMessage t.requests.length true).issued = none := rfl
  show AllAnswered (_ :: t.messages.tail) ↔ _
  rw [hmessages]
  unfold AllAnswered
  rw [List.tail_cons, answered_cons_none hsystem, answered_cons_none hnone]

theorem asked_twice {t : TurnState} (h : Headed t.messages) (tools : List ToolSpec) (toolChoiceNone : Bool) :
    Asked t (w.send (w.fallen (w.send t tools toolChoiceNone).1) [] false).1 := by
  have hfallen : AllAnswered (w.fallen (w.send t tools toolChoiceNone).1).messages ↔ AllAnswered t.messages :=
    fallen_answered w h
  have hrequests : (w.send (w.fallen (w.send t tools toolChoiceNone).1) [] false).1.requests =
      t.requests ++ [⟨t.messages, tools, toolChoiceNone⟩,
        ⟨(w.fallen (w.send t tools toolChoiceNone).1).messages, [], false⟩] := List.append_assoc _ _ _
  refine ⟨⟨_, hrequests, Nat.le_refl 2, ?_⟩, ⟨_, _, rfl, rfl⟩, hfallen, rfl⟩
  rw [List.forall_mem_cons, List.forall_mem_singleton, hfallen]
  exact and_self_iff

theorem receive_asked {t : TurnState} (h : Headed t.messages) (forceText : Bool) :
    Asked t (w.receive forceText t).1 := by
  have hone := asked_once w h (w.wireSpecs t) (!(w.wireSpecs t).isEmpty && forceText)
  have htwo := asked_twice w h (w.wireSpecs t) (!(w.wireSpecs t).isEmpty && forceText)
  unfold TurnWorld.receive
  dsimp only
  split
  · next t' detail code hsend =>
    rw [hsend] at htwo
    exact htwo
  · exact hone

/-! ## A round -/

theorem openingMessages_headed (sent : Nat) : Headed (w.openingMessages sent) := ⟨_, _, rfl, rfl⟩

theorem issued_plain (message : ChatMessage) : (TurnMessage.plain message).issued.getD [] = [] := by
  show (if message.role = .assistant then some [] else none).getD [] = _
  split
  · rfl
  · rfl

/-- Nothing of the window and of the message of the user makes a call. -/
theorem plain_answered (messages : List ChatMessage) : AllAnswered (messages.map TurnMessage.plain) := by
  induction messages with
  | nil => trivial
  | cons message messages ih =>
    refine ⟨?_, ih⟩
    intro k hk
    rw [issued_plain] at hk
    exact absurd hk List.not_mem_nil

theorem openingMessages_answered (sent : Nat) : AllAnswered (w.openingMessages sent) := by
  have h := plain_answered
    (⟨.system, w.systemPrompt sent false⟩ ::
      (historyMessages w.rows w.conversationId (w.userMessageId.getD 0) historyWindow ++ [⟨.user, w.userText⟩]))
  rw [List.map_cons, List.map_append] at h
  exact h

theorem opened_requests (t : TurnState) : (w.opened t).requests = t.requests := by
  unfold TurnWorld.opened
  split
  · rfl
  · rfl

theorem opened_status (t : TurnState) : (w.opened t).status = t.status := by
  unfold TurnWorld.opened
  split
  · rfl
  · rfl

theorem opened_eq {t : TurnState} (h : Headed t.messages) : w.opened t = t := by
  obtain ⟨head, rest, hmessages, -⟩ := h
  unfold TurnWorld.opened
  rw [hmessages]
  rfl

/-- The reply that a round gets, and the state it comes in. -/
def received (i : Nat) : TurnState × Except AdapterError ModelResponse :=
  w.receive (i + 1 = w.rounds) (w.opened (w.turnAt i))

/-- The reply of a round is fine, if there is one and its tokens can be counted. -/
def RoundFine (i : Nat) : Prop :=
  ∀ response usage, (received w i).2 = .ok response → normalizeUsage response.usage = .ok usage →
    ReplyFine w ((received w i).1.charged usage) response

/-- All requests so far were well formed, and the next one will be. -/
structure WellFormed (t : TurnState) : Prop where
  sent : ∀ request ∈ t.requests, AllAnswered request.messages
  next : t.status = .running → AllAnswered (w.opened t).messages

theorem turnAt_stopped {i : Nat} (h : (w.turnAt i).status ≠ .running) : w.turnAt (i + 1) = w.turnAt i := by
  rw [TurnWorld.turnAt]
  split
  · next hrunning => exact absurd hrunning h
  · rfl

/-- What a round makes of the state in which its reply came. -/
theorem turnAt_received {i : Nat} (h : (w.turnAt i).status = .running) :
    w.turnAt (i + 1) = w.takeReply (received w i).1 (received w i).2 := by
  rw [TurnWorld.turnAt, h]
  rfl

theorem turnAt_headed (i : Nat) : Headed (w.opened (w.turnAt i)).messages := by
  induction i with
  | zero => exact openingMessages_headed w 0
  | succ i ih =>
    by_cases hrunning : (w.turnAt i).status = .running
    · have hheaded := (receive_asked w ih (i + 1 = w.rounds)).headed
      have hafter : Headed (w.turnAt (i + 1)).messages := by
        rw [turnAt_received w hrunning]
        unfold TurnWorld.takeReply
        split
        · exact hheaded
        · next response _ =>
          split
          · exact hheaded
          · next usage _ =>
            obtain ⟨said, hsaid⟩ := handleReply_messages w ((received w i).1.charged usage) response
            rw [hsaid]
            exact Headed.append hheaded
      rw [opened_eq w hafter]
      exact hafter
    · rw [turnAt_stopped w hrunning]
      exact ih

theorem round_asked (i : Nat) : Asked (w.opened (w.turnAt i)) (received w i).1 :=
  receive_asked w (turnAt_headed w i) _

theorem received_requests {i : Nat} (h : (w.turnAt i).status = .running) :
    (w.turnAt (i + 1)).requests = (received w i).1.requests := by
  rw [turnAt_received w h]
  unfold TurnWorld.takeReply
  split
  · rfl
  · next response _ =>
    split
    · rfl
    · exact handleReply_requests w _ response

/-- A round sends what it has, and goes on with a well-formed conversation exactly for a reply that is fine. -/
theorem wellFormed_step {i : Nat} (h : (w.turnAt i).status = .running) :
    WellFormed w (w.turnAt (i + 1)) ↔ WellFormed w (w.turnAt i) ∧ RoundFine w i := by
  have hasked := round_asked w i
  obtain ⟨sent, hrequests, -, hsent⟩ := hasked.requests
  rw [opened_requests] at hrequests
  have hbefore : (∀ request ∈ (w.turnAt (i + 1)).requests, AllAnswered request.messages) ↔
      WellFormed w (w.turnAt i) := by
    rw [received_requests w h, hrequests, List.forall_mem_append, hsent]
    constructor
    · intro hall
      exact ⟨hall.1, fun _ => hall.2⟩
    · intro hwell
      exact ⟨hwell.sent, hwell.next h⟩
  have hnext : AllAnswered (received w i).1.messages →
      (((w.turnAt (i + 1)).status = .running → AllAnswered (w.opened (w.turnAt (i + 1))).messages) ↔
        RoundFine w i) := by
    intro hanswered
    have hstatus : (received w i).1.status = .running := hasked.status.trans ((opened_status w _).trans h)
    rw [turnAt_received w h]
    unfold RoundFine TurnWorld.takeReply
    cases hreply : (received w i).2 with
    | error e => exact iff_of_true (fun hbroken => nomatch hbroken) fun response usage hok => nomatch hok
    | ok response =>
      dsimp only
      cases husage : normalizeUsage response.usage with
      | error e =>
        refine iff_of_true (fun hbroken => nomatch hbroken) ?_
        intro response' usage hok hcounted
        cases hok
        rw [husage] at hcounted
        cases hcounted
      | ok usage =>
        have hheaded : Headed (w.handleReply ((received w i).1.charged usage) response).messages := by
          obtain ⟨said, hsaid⟩ := handleReply_messages w ((received w i).1.charged usage) response
          rw [hsaid]
          exact Headed.append hasked.headed
        have hfine := @handleReply_answered w ((received w i).1.charged usage) response hanswered hstatus
        dsimp only
        rw [opened_eq w hheaded, hfine]
        constructor
        · intro hreplied response' usage' hok hcounted
          cases hok
          rw [husage] at hcounted
          cases hcounted
          exact hreplied
        · intro hall
          exact hall response usage rfl husage
  constructor
  · intro hwell
    have hprev := hbefore.mp hwell.sent
    exact ⟨hprev, (hnext (hasked.answered.mpr (hprev.next h))).mp hwell.next⟩
  · intro hboth
    exact ⟨hbefore.mpr hboth.1, (hnext (hasked.answered.mpr (hboth.1.next h))).mpr hboth.2⟩

theorem wellFormed_turnAt (n : Nat) :
    WellFormed w (w.turnAt n) ↔ ∀ i < n, (w.turnAt i).status = .running → RoundFine w i := by
  induction n with
  | zero =>
    refine iff_of_true ⟨fun request hrequest => absurd hrequest List.not_mem_nil, ?_⟩ ?_
    · intro _
      exact openingMessages_answered w 0
    · intro i hi
      omega
  | succ n ih =>
    rw [Nat.forall_lt_succ_right]
    by_cases hrunning : (w.turnAt n).status = .running
    · rw [wellFormed_step w hrunning, ih, forall_prop_of_true hrunning]
    · rw [turnAt_stopped w hrunning, ih]
      exact (and_iff_left fun h => absurd h hrunning).symm

/-- The last round sends its request, and nothing depends on its reply. -/
theorem requests_turnAt (n : Nat) :
    (∀ request ∈ (w.turnAt (n + 1)).requests, AllAnswered request.messages) ↔
      ∀ i < n, (w.turnAt i).status = .running → RoundFine w i := by
  rw [← wellFormed_turnAt]
  by_cases hrunning : (w.turnAt n).status = .running
  · obtain ⟨sent, hrequests, -, hsent⟩ := (round_asked w n).requests
    rw [opened_requests] at hrequests
    rw [received_requests w hrunning, hrequests, List.forall_mem_append, hsent]
    constructor
    · intro hall
      exact ⟨hall.1, fun _ => hall.2⟩
    · intro hwell
      exact ⟨hwell.sent, hwell.next hrunning⟩
  · rw [turnAt_stopped w hrunning]
    constructor
    · intro hall
      exact ⟨hall, fun h => absurd h hrunning⟩
    · intro hwell
      exact hwell.sent

theorem requests_length (n : Nat) : (w.turnAt n).requests.length ≤ 2 * n := by
  induction n with
  | zero => exact Nat.le_refl 0
  | succ n ih =>
    by_cases hrunning : (w.turnAt n).status = .running
    · obtain ⟨sent, hrequests, hlength, -⟩ := (round_asked w n).requests
      rw [opened_requests] at hrequests
      rw [received_requests w hrunning, hrequests, List.length_append]
      omega
    · rw [turnAt_stopped w hrunning]
      omega

/-! ## The turn -/

/-- The summary is asked for without a call. -/
theorem runTurn_requests : ∃ asked, w.runTurn.requests = (w.turnAt w.rounds).requests ++ asked ∧
    asked.length ≤ 1 ∧ ∀ request ∈ asked, AllAnswered request.messages := by
  have hrefreshed : ∃ asked, (w.refreshed (w.turnAt w.rounds)).requests = (w.turnAt w.rounds).requests ++ asked ∧
      asked.length ≤ 1 ∧ ∀ request ∈ asked, AllAnswered request.messages := by
    unfold TurnWorld.refreshed
    split
    · exact ⟨[], (List.append_nil _).symm, Nat.zero_le 1, fun _ hmem => absurd hmem List.not_mem_nil⟩
    · refine ⟨[⟨(summaryPrompt w.summary w.unfolded).map TurnMessage.plain, [], false⟩], ?_, Nat.le_refl 1, ?_⟩
      · unfold TurnWorld.send
        dsimp only
        cases w.service (w.turnAt w.rounds).requests.length with
        | error e => rfl
        | ok response =>
          dsimp only
          split
          · split
            · rfl
            · rfl
          · rfl
      · rw [List.forall_mem_singleton]
        exact plain_answered _
  unfold TurnWorld.runTurn
  dsimp only
  split
  · exact ⟨[], (List.append_nil _).symm, Nat.zero_le 1, fun _ hmem => absurd hmem List.not_mem_nil⟩
  · split
    · exact hrefreshed
    · exact hrefreshed

theorem rounds_pos : 0 < w.rounds := by
  unfold TurnWorld.rounds
  omega

/-- A turn sends at most two requests in a round, and one for the summary. Its requests are well formed exactly
where the reply of every round but the last is fine. -/
theorem run_turn_protocol :
    w.runTurn.requests.length ≤ 2 * w.rounds + 1 ∧
      ((∀ request ∈ w.runTurn.requests, AllAnswered request.messages) ↔
        ∀ i, i + 1 < w.rounds → (w.turnAt i).status = .running → RoundFine w i) := by
  obtain ⟨asked, hrequests, hlength, hasked⟩ := runTurn_requests w
  have hrounds := rounds_pos w
  constructor
  · have hle := requests_length w w.rounds
    rw [hrequests, List.length_append]
    omega
  · have hlast := requests_turnAt w (w.rounds - 1)
    rw [Nat.sub_add_cancel hrounds] at hlast
    rw [hrequests, List.forall_mem_append, and_iff_left hasked, hlast]
    constructor
    · intro hall i hi
      exact hall i (by omega)
    · intro hall i hi
      exact hall i (by omega)

end

def quietChats : Conversations where
  config := { enabled := true, allowWriteActions := false, maxUserChars := 4000 }
  serviceKey := "key"
  access := fun _ => none
  conversations := Table.empty
  messages := Table.empty
  usage := []
  clock := 0

/-- The service names its first call, and leaves the key of the second one to the loop. -/
def mixedReply : ModelResponse where
  toolCalls := [⟨"call_1", "search", "", []⟩, ⟨"", "search", "", []⟩]

def mixedTurn : TurnWorld where
  user := ⟨1, "reader", .unitSupervisor, none⟩
  caps := []
  allowWrites := false
  maxToolIterations := 2
  tools := []
  conversationId := 1
  userMessageId := none
  userText := "?"
  rows := quietChats
  summary := {}
  actions := Table.empty
  py := ⟨fun _ => .invalid, fun _ => ""⟩
  loadError := fun text => text
  describe := fun _ _ => none
  preview := fun _ _ _ => none
  systemPrompt := fun _ _ => ""
  handler := fun _ _ _ => .error (.crashed "")
  entry := fun _ _ _ => .ok ()
  now := fun _ => 0
  service := fun _ => .ok mixedReply

theorem mixed_keys_collide : ¬∀ request ∈ mixedTurn.runTurn.requests, AllAnswered request.messages := by
  decide

end NexaHR
