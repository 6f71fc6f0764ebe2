import NexaHR.Services.Provider

/-! # What leaves the adapter

The layers above the adapter know its two errors and no others. The fields of an answer are read in a guarded
block, which catches what a missing field leads to. Still a message that is not an object, calls that are not a
list of objects and a text that is nested too deep raise errors that nothing catches, and the tokens of a reply
cannot be counted where the service writes an infinite number.

* `AnswerShaped`: the answers that the adapter can take.
* `readAnswer_message`: the guarded block.
* `send_foreseen`: a request ends in a reply that can be counted or in a known error, exactly for these answers.
-/

namespace NexaHR

open Foundations

set_option autoImplicit false

/-! ## Answers that the adapter can take -/

namespace WireJson

/-- A field of an object. -/
def fieldOf (v : WireJson) (key : String) : WireJson :=
  match v with
  | .dict fields => (WireFields.lookup fields key).getD .none
  | _ => .none

/-- The message of the first choice. -/
def messageOf : WireJson → Option WireJson
  | .dict fields =>
    match WireFields.lookup fields "choices" with
    | some (.list (.dict choice :: _)) => WireFields.lookup choice "message"
    | _ => Option.none
  | _ => Option.none

/-- A call is an object, and its function, if there is one, as well. -/
def CallReadable (raw : WireJson) : Prop :=
  raw.isDict = true ∧ ((raw.fieldOf "function").isTrue = true → (raw.fieldOf "function").isDict = true)

/-- There are no calls, or a list of them. -/
def CallsReadable (v : WireJson) : Prop :=
  v.isTrue = true → ∃ items, v = .list items ∧ ∀ raw ∈ items, raw.CallReadable

def isUnbounded : WireJson → Bool
  | .infinite _ => true
  | .nan => true
  | _ => false

def isWhole : WireJson → Bool
  | .number n => n.whole?.isSome
  | _ => false

end WireJson

/-- No infinite number and no NaN comes before the first whole number. -/
def Countable (usage : WireJson) : List String → Prop
  | [] => True
  | key :: keys =>
    (usage.fieldOf key).isUnbounded = false ∧ ((usage.fieldOf key).isWhole = false → Countable usage keys)

structure UsageCountable (usage : WireJson) : Prop where
  prompt : Countable usage promptKeys
  completion : Countable usage completionKeys
  total : Countable usage totalKeys

/-- A message is an object with readable calls, and its tokens can be counted. -/
structure MessageShaped (body message : WireJson) : Prop where
  object : message.isDict = true
  calls : (message.fieldOf "tool_calls").CallsReadable
  usage : UsageCountable (body.fieldOf "usage")

structure AnswerShaped (answer : HttpAnswer) : Prop where
  shallow : answer.body ≠ .tooDeep
  message : answer.statusCode < 400 → ∀ body message, answer.body = .json body →
    body.messageOf = some message → MessageShaped body message

/-! ## Counting -/

theorem fieldOf_dict (fields : WireFields) (key : String) :
    (WireJson.dict fields).fieldOf key = (WireFields.lookup fields key).getD .none := rfl

theorem firstInt_isOk (fields : WireFields) (keys : List String) :
    (∃ n, firstInt fields keys = .ok n) ↔ Countable (.dict fields) keys := by
  induction keys with
  | nil => exact iff_of_true ⟨0, rfl⟩ trivial
  | cons key keys ih =>
    unfold firstInt Countable
    rw [fieldOf_dict, ← ih]
    cases WireFields.lookup fields key with
    | none => simp [WireJson.isUnbounded, WireJson.isWhole]
    | some v =>
      cases v with
      | number n =>
        cases hwhole : n.whole? with
        | none => simp [WireJson.isUnbounded, WireJson.isWhole, hwhole]
        | some count => simp [WireJson.isUnbounded, WireJson.isWhole, hwhole]
      | _ => simp [WireJson.isUnbounded, WireJson.isWhole]

theorem countable_of_not_dict {usage : WireJson} (h : usage.isDict = false) (keys : List String) :
    Countable usage keys := by
  have hnone : ∀ key, usage.fieldOf key = .none := by
    intro key
    cases usage with
    | dict fields => cases h
    | _ => rfl
  induction keys with
  | nil => trivial
  | cons key keys ih =>
    unfold Countable
    rw [hnone]
    exact ⟨rfl, fun _ => ih⟩

theorem normalizeUsage_isOk (usage : WireJson) :
    (∃ counted, normalizeUsage usage = .ok counted) ↔ UsageCountable usage := by
  cases usage with
  | dict fields =>
    unfold normalizeUsage
    constructor
    · intro h
      obtain ⟨counted, h⟩ := h
      simp only [bind_eq_ok] at h
      obtain ⟨prompt, hprompt, completion, hcompletion, total, htotal, -⟩ := h
      exact ⟨(firstInt_isOk _ _).mp ⟨_, hprompt⟩, (firstInt_isOk _ _).mp ⟨_, hcompletion⟩,
        (firstInt_isOk _ _).mp ⟨_, htotal⟩⟩
    · intro h
      obtain ⟨prompt, hprompt⟩ := (firstInt_isOk _ _).mpr h.prompt
      obtain ⟨completion, hcompletion⟩ := (firstInt_isOk _ _).mpr h.completion
      obtain ⟨total, htotal⟩ := (firstInt_isOk _ _).mpr h.total
      dsimp only
      rw [hprompt, hcompletion, htotal]
      exact ⟨_, rfl⟩
  | _ =>
    refine iff_of_true ⟨_, rfl⟩ ⟨?_, ?_, ?_⟩
    · exact countable_of_not_dict rfl _
    · exact countable_of_not_dict rfl _
    · exact countable_of_not_dict rfl _

/-- The empty object that stands for a usage that says nothing is counted like that usage. -/
theorem usageCountable_or (usage : WireJson) :
    UsageCountable (usage.or (.dict [])) ↔ UsageCountable usage := by
  unfold WireJson.or
  split
  · exact Iff.rfl
  · next hfalse =>
    have hempty : UsageCountable (.dict []) := (normalizeUsage_isOk _).mp ⟨_, rfl⟩
    refine iff_of_true hempty ?_
    cases usage with
    | dict fields =>
      cases fields with
      | nil => exact hempty
      | cons field fields => exact absurd rfl hfalse
    | _ => exact (normalizeUsage_isOk _).mp ⟨_, rfl⟩

/-! ## The guarded block -/

section

variable (py : WirePython) {answer : HttpAnswer} {body message : WireJson}

theorem get_of_dict {v : WireJson} (h : v.isDict = true) (key : String) : v.get key = .ok (v.fieldOf key) := by
  cases v with
  | dict fields => rfl
  | _ => cases h

theorem get_of_not_dict {v : WireJson} (h : v.isDict = false) (key : String) :
    v.get key = .error .attributeError := by
  cases v with
  | dict fields => cases h
  | _ => rfl

theorem item_caught {v : WireJson} {key : String} {e : PyError} (h : v.item key = .error e) :
    isCaught (.raised e) = true := by
  unfold WireJson.item at h
  split at h
  · split at h
    · cases h
    · cases h
      rfl
  · cases h
    rfl

theorem first_caught {v : WireJson} {e : PyError} (h : v.first = .error e) : isCaught (.raised e) = true := by
  unfold WireJson.first at h
  split at h
  · cases h
    rfl
  · cases h
  · split at h
    · cases h
      rfl
    · cases h
  · cases h
    rfl
  · cases h
    rfl

theorem item_eq_ok {v value : WireJson} {key : String} (h : v.item key = .ok value) :
    ∃ fields, v = .dict fields ∧ WireFields.lookup fields key = some value := by
  unfold WireJson.item at h
  split at h
  · next fields =>
    split at h
    · next hlookup =>
      cases h
      exact ⟨fields, rfl, hlookup⟩
    · cases h
  · cases h

/-- A choice with fields is the first one of a list. -/
theorem first_eq_dict {v : WireJson} {fields : WireFields} (h : v.first = .ok (.dict fields)) :
    ∃ others, v = .list (.dict fields :: others) := by
  unfold WireJson.first at h
  split at h
  · cases h
  · next v others =>
    cases h
    exact ⟨others, rfl⟩
  · split at h
    · cases h
    · cases h
  · cases h
  · cases h

theorem messageOf_eq_some {choices choice : WireJson} (hchoices : body.item "choices" = .ok choices)
    (hchoice : choices.first = .ok choice) (hmessage : choice.item "message" = .ok message) :
    body.messageOf = some message := by
  obtain ⟨fields, rfl, hfields⟩ := item_eq_ok hchoices
  obtain ⟨chosen, rfl, hchosen⟩ := item_eq_ok hmessage
  obtain ⟨others, rfl⟩ := first_eq_dict hchoice
  unfold WireJson.messageOf
  dsimp only
  rw [hfields]
  exact hchosen

theorem messageOf_cases (h : body.messageOf = some message) :
    ∃ choices choice, body.item "choices" = .ok choices ∧ choices.first = .ok (.dict choice) ∧
      (WireJson.dict choice).item "message" = .ok message := by
  unfold WireJson.messageOf at h
  split at h
  · next fields =>
    split at h
    · next choice others hlookup =>
      refine ⟨.list (.dict choice :: others), choice, ?_, rfl, ?_⟩
      · unfold WireJson.item
        dsimp only
        rw [hlookup]
      · unfold WireJson.item
        dsimp only
        rw [h]
    · cases h
  · cases h

/-- Without a message the block raises an error that it catches. -/
theorem readAnswer_no_message (h : answer.body = .json body) (hnone : body.messageOf = none) :
    ∃ e, readAnswer py answer = .error e ∧ isCaught (.raised e) = true := by
  unfold readAnswer HttpAnswer.json
  rw [h]
  show ∃ e, (body.item "choices" >>= _) = .error e ∧ _
  cases hchoices : body.item "choices" with
  | error e => exact ⟨e, rfl, item_caught hchoices⟩
  | ok choices =>
    show ∃ e, (choices.first >>= _) = .error e ∧ _
    cases hchoice : choices.first with
    | error e => exact ⟨e, rfl, first_caught hchoice⟩
    | ok choice =>
      show ∃ e, (choice.item "message" >>= _) = .error e ∧ _
      cases hmessage : choice.item "message" with
      | error e => exact ⟨e, rfl, item_caught hmessage⟩
      | ok message =>
        rw [messageOf_eq_some hchoices hchoice hmessage] at hnone
        cases hnone

/-- What the block reads of a message. -/
theorem readAnswer_message (h : answer.body = .json body) (hmessage : body.messageOf = some message) :
    ∃ finishReason, readAnswer py answer = (do
      let content ← message.get "content"
      let rawCalls ← message.get "tool_calls"
      pure ⟨body, content.or (.str ""), rawCalls.or (.list []), finishReason⟩) := by
  obtain ⟨choices, choice, hchoices, hchoice, hitem⟩ := messageOf_cases hmessage
  refine ⟨py.text (((WireJson.dict choice).fieldOf "finish_reason").or (.str "")), ?_⟩
  unfold readAnswer HttpAnswer.json
  rw [h]
  show (body.item "choices" >>= _) = _
  rw [hchoices]
  show (choices.first >>= _) = _
  rw [hchoice]
  show ((WireJson.dict choice).item "message" >>= _) = _
  rw [hitem]
  rfl

/-! ## The calls -/

theorem isDict_or {v : WireJson} : (v.or (.dict [])).isDict = true ↔ (v.isTrue = true → v.isDict = true) := by
  unfold WireJson.or
  cases htrue : v.isTrue with
  | true =>
    rw [if_pos rfl]
    exact ⟨fun h _ => h, fun h => h rfl⟩
  | false => exact iff_of_true rfl fun h => nomatch h

theorem readCall_isOk (index : Nat) (raw : WireJson) :
    (∃ call, readCall py index raw = .ok call) ↔ raw.CallReadable := by
  unfold WireJson.CallReadable
  rw [← isDict_or]
  cases hraw : raw.isDict with
  | false =>
    refine iff_of_false ?_ fun h => nomatch h.1
    unfold readCall
    rw [get_of_not_dict hraw]
    intro h
    obtain ⟨call, h⟩ := h
    cases h
  | true =>
    have hitems : ∃ extra, providerExtra raw = .ok extra := by
      cases raw with
      | dict fields => exact ⟨_, rfl⟩
      | _ => cases hraw
    obtain ⟨extra, hextra⟩ := hitems
    unfold readCall
    rw [get_of_dict hraw, get_of_dict hraw, hextra]
    cases hfunction : ((raw.fieldOf "function").or (.dict [])).isDict with
    | false =>
      refine iff_of_false ?_ fun h => nomatch h.2
      intro h
      obtain ⟨call, h⟩ := h
      change (((raw.fieldOf "function").or (.dict [])).get "arguments" >>= _) = _ at h
      rw [get_of_not_dict hfunction] at h
      cases h
    | true =>
      refine iff_of_true ?_ ⟨rfl, rfl⟩
      show ∃ call, (((raw.fieldOf "function").or (.dict [])).get "arguments" >>= _) = .ok call
      rw [get_of_dict hfunction, get_of_dict hfunction]
      exact ⟨_, rfl⟩

/-- The calls are read without an error of their own exactly where they are readable. -/
theorem readCalls_isOk (v : WireJson) :
    (∃ calls, ((v.or (.list [])).elements >>= loopFrom (readCall py) 0) = .ok calls) ↔ v.CallsReadable := by
  have hloop : ∀ items : List WireJson,
      (∃ calls, loopFrom (readCall py) 0 items = .ok calls) ↔ ∀ raw ∈ items, raw.CallReadable := by
    intro items
    rw [← raises_nothing]
    apply raises_loop
    · intro n raw hreadable
      exact (readCall_isOk py n raw).mpr hreadable
    · intro n raw hraises
      exact (readCall_isOk py n raw).mp (raises_nothing.mp hraises)
  unfold WireJson.CallsReadable WireJson.or
  cases htrue : v.isTrue with
  | false => exact iff_of_true ⟨[], rfl⟩ fun h => nomatch h
  | true =>
    rw [forall_prop_of_true rfl, if_pos rfl]
    -- texts and keys are no objects
    have hnone : ∀ (items : List WireJson), items ≠ [] → (∀ raw ∈ items, raw.isDict = false) →
        ¬∀ raw ∈ items, raw.CallReadable := by
      intro items hne htexts hall
      obtain ⟨raw, hraw⟩ := List.exists_mem_of_ne_nil items hne
      have hreadable := (hall raw hraw).1
      rw [htexts raw hraw] at hreadable
      cases hreadable
    cases v with
    | list items =>
      refine (hloop items).trans ?_
      constructor
      · intro hall
        exact ⟨items, rfl, hall⟩
      · intro h
        obtain ⟨items', heq, hall⟩ := h
        cases heq
        exact hall
    | str s =>
      refine (hloop _).trans (iff_of_false (hnone _ ?_ ?_) fun ⟨items, h, _⟩ => nomatch h)
      · intro hnil
        rw [List.map_eq_nil_iff, String.toList_eq_nil_iff] at hnil
        exact of_decide_eq_true htrue hnil
      · intro raw hraw
        obtain ⟨c, -, rfl⟩ := List.mem_map.mp hraw
        rfl
    | dict fields =>
      refine (hloop _).trans (iff_of_false (hnone _ ?_ ?_) fun ⟨items, h, _⟩ => nomatch h)
      · intro hnil
        rw [List.map_eq_nil_iff] at hnil
        rw [hnil] at htrue
        cases htrue
      · intro raw hraw
        obtain ⟨field, -, rfl⟩ := List.mem_map.mp hraw
        rfl
    | _ => exact iff_of_false (fun ⟨calls, h⟩ => nomatch h) fun ⟨items, h, _⟩ => nomatch h

/-! ## A request -/

/-- A request ends in a reply whose tokens can be counted, or in an error that the layers above know. -/
structure NothingUnforeseen (outcome : Except AdapterError ModelResponse) : Prop where
  error : Raises AdapterError.Foreseen outcome
  usage : ∀ response, outcome = .ok response → ∃ counted, normalizeUsage response.usage = .ok counted

theorem nothingUnforeseen_error {e : AdapterError} :
    NothingUnforeseen (.error e) ↔ e.Foreseen := by
  constructor
  · intro h
    exact raises_error.mp h.error
  · intro h
    exact ⟨raises_error.mpr h, fun response hok => nomatch hok⟩

theorem nothingUnforeseen_ok {response : ModelResponse} :
    NothingUnforeseen (.ok response) ↔ UsageCountable response.usage := by
  rw [← normalizeUsage_isOk]
  constructor
  · intro h
    exact h.usage response rfl
  · intro h
    refine ⟨raises_ok response, ?_⟩
    intro response' hok
    cases hok
    exact h

/-- An error of Python is known to nobody. -/
theorem nothingUnforeseen_raised {α : Type} {x : Except PyError α} {f : α → Except AdapterError ModelResponse} :
    NothingUnforeseen (x.mapError .raised >>= f) ↔ ∃ a, x = .ok a ∧ NothingUnforeseen (f a) := by
  cases x with
  | error e => exact iff_of_false nothingUnforeseen_error.mp fun ⟨a, h, _⟩ => nomatch h
  | ok a =>
    show NothingUnforeseen (f a) ↔ _
    constructor
    · intro h
      exact ⟨a, rfl, h⟩
    · intro h
      obtain ⟨a', hok, hf⟩ := h
      cases hok
      exact hf

theorem readResponse_foreseen (hbody : answer.body = .json body) :
    NothingUnforeseen (readResponse py answer) ↔
      ∀ message, body.messageOf = some message → MessageShaped body message := by
  unfold readResponse
  cases hmessage : body.messageOf with
  | none =>
    obtain ⟨e, hread, hcaught⟩ := readAnswer_no_message py hbody hmessage
    refine iff_of_true ?_ fun message h => nomatch h
    rw [hread]
    show NothingUnforeseen (guarded isCaught _ (.error (.raised e)) >>= _)
    rw [guarded_caught hcaught]
    exact nothingUnforeseen_error.mpr trivial
  | some message =>
    obtain ⟨finishReason, hread⟩ := readAnswer_message py hbody hmessage
    rw [hread]
    cases hdict : message.isDict with
    | false =>
      rw [get_of_not_dict hdict]
      refine iff_of_false nothingUnforeseen_error.mp fun h => ?_
      have hobject := (h message rfl).object
      rw [hdict] at hobject
      cases hobject
    | true =>
      have hobject : ∃ fields, body = .dict fields := by
        cases body with
        | dict fields => exact ⟨fields, rfl⟩
        | _ => cases hmessage
      obtain ⟨fields, rfl⟩ := hobject
      rw [get_of_dict hdict, get_of_dict hdict]
      show NothingUnforeseen (((message.fieldOf "tool_calls").or (.list [])).elements.mapError .raised >>= _) ↔ _
      simp only [nothingUnforeseen_raised]
      constructor
      · intro h message' hsome
        cases hsome
        obtain ⟨rawCalls, helements, calls, hcalls, usage, husage, hresponse⟩ := h
        cases husage
        refine ⟨hdict, (readCalls_isOk py _).mp ⟨calls, ?_⟩, ?_⟩
        · rw [helements]
          exact hcalls
        · exact (usageCountable_or _).mp (nothingUnforeseen_ok.mp hresponse)
      · intro h
        have hshaped := h message rfl
        obtain ⟨calls, hcalls⟩ := (readCalls_isOk py _).mpr hshaped.calls
        obtain ⟨rawCalls, helements, hcalls⟩ := bind_eq_ok.mp hcalls
        refine ⟨rawCalls, helements, calls, hcalls, _, rfl, ?_⟩
        exact nothingUnforeseen_ok.mpr ((usageCountable_or _).mpr hshaped.usage)

theorem refuseAnswer_foreseen (tools : Bool) :
    NothingUnforeseen (refuseAnswer py tools answer) ↔ answer.body ≠ .tooDeep := by
  unfold refuseAnswer
  rw [nothingUnforeseen_raised]
  unfold httpErrorText HttpAnswer.json
  have hknown : ∀ text, NothingUnforeseen
      (if tools && decide (answer.statusCode ∈ [400, 404, 422]) &&
          toolNeedles.any (fun needle => containsText needle (lowerText text)) then
        .error (.protocolUnsupported text answer.statusCode)
      else .error (.requestFailed text (some answer.statusCode))) := by
    intro text
    split
    · exact nothingUnforeseen_error.mpr trivial
    · exact nothingUnforeseen_error.mpr trivial
  cases answer.body with
  | json body => exact iff_of_true ⟨_, rfl, hknown _⟩ fun h => nomatch h
  | other => exact iff_of_true ⟨_, rfl, hknown _⟩ fun h => nomatch h
  | tooDeep => exact iff_of_false (fun ⟨text, h, _⟩ => nomatch h) fun h => h rfl

theorem readResponse_other (hbody : answer.body = .other) : NothingUnforeseen (readResponse py answer) := by
  unfold readResponse readAnswer HttpAnswer.json
  rw [hbody]
  exact nothingUnforeseen_error.mpr trivial

theorem readResponse_tooDeep (hbody : answer.body = .tooDeep) : ¬NothingUnforeseen (readResponse py answer) := by
  unfold readResponse readAnswer HttpAnswer.json
  rw [hbody]
  exact nothingUnforeseen_error.mp

/-- An answer is taken exactly where it is shaped as the adapter expects. -/
theorem answer_foreseen (tools : Bool) :
    NothingUnforeseen (if 400 ≤ answer.statusCode then refuseAnswer py tools answer else readResponse py answer) ↔
      AnswerShaped answer := by
  by_cases hstatus : 400 ≤ answer.statusCode
  · rw [if_pos hstatus, refuseAnswer_foreseen]
    constructor
    · intro h
      exact ⟨h, fun hlt => absurd hstatus (not_le.mpr hlt)⟩
    · intro h
      exact h.shallow
  · rw [if_neg hstatus]
    have hlt := not_le.mp hstatus
    cases hbody : answer.body with
    | other =>
      refine iff_of_true (readResponse_other py hbody) ⟨?_, ?_⟩
      · rw [hbody]
        exact fun h => nomatch h
      · intro _ body message heq
        rw [hbody] at heq
        cases heq
    | tooDeep => exact iff_of_false (readResponse_tooDeep py hbody) fun h => h.shallow hbody
    | json body =>
      rw [readResponse_foreseen py hbody]
      constructor
      · intro h
        refine ⟨?_, ?_⟩
        · rw [hbody]
          exact fun hdeep => nomatch hdeep
        · intro _ body' message heq
          rw [hbody] at heq
          cases heq
          exact h message
      · intro h message
        exact h.message hlt body message hbody

theorem ready_foreseen (adapter : OpenAiCompatibleAdapter) : Raises AdapterError.Foreseen adapter.ready := by
  unfold OpenAiCompatibleAdapter.ready
  simp only [raises_bind, raises_ensure]
  exact ⟨fun _ => trivial, fun _ _ => ⟨fun _ => trivial, fun _ _ _ => trivial⟩⟩

/-- A request that is made at all ends well exactly for an answer of the shape that the adapter expects. -/
theorem send_foreseen (adapter : OpenAiCompatibleAdapter) (tools : Bool) (posting : Posting) :
    NothingUnforeseen (send py adapter tools posting) ↔
      (adapter.ready = .ok () → ∀ answer, posting = .answered answer → AnswerShaped answer) := by
  unfold send
  cases hready : adapter.ready with
  | error e => exact iff_of_true (nothingUnforeseen_error.mpr (ready_foreseen adapter e hready)) fun h => nomatch h
  | ok u =>
    rw [forall_prop_of_true rfl]
    cases posting with
    | answered answer =>
      show NothingUnforeseen (if _ then _ else _) ↔ _
      rw [answer_foreseen]
      constructor
      · intro h answer' heq
        cases heq
        exact h
      · intro h
        exact h answer rfl
    | timedOut => exact iff_of_true (nothingUnforeseen_error.mpr trivial) fun _ h => nomatch h
    | invalidUrl err => exact iff_of_true (nothingUnforeseen_error.mpr trivial) fun _ h => nomatch h
    | httpError err => exact iff_of_true (nothingUnforeseen_error.mpr trivial) fun _ h => nomatch h

end

def readyAdapter : OpenAiCompatibleAdapter := ⟨"https://api.openai.com/v1", "sk-1", "gpt-4o", 60⟩

/-- The message is a text instead of an object. -/
def textMessage : HttpAnswer where
  statusCode := 200
  text := "\x7b\"choices\": [\x7b\"message\": \"hello\"\x7d]\x7d"
  body := .json (.dict [("choices", .list [.dict [("message", .str "hello")]])])

theorem text_message_raises :
    ¬∀ (py : WirePython) (adapter : OpenAiCompatibleAdapter) (tools : Bool) (posting : Posting),
      NothingUnforeseen (send py adapter tools posting) := by
  intro h
  have hsend := h ⟨fun _ => "", fun _ => ""⟩ readyAdapter false (.answered textMessage)
  exact hsend.error (.raised .attributeError) rfl

end NexaHR
