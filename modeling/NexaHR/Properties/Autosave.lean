import NexaHR.Pages.Autosave
import NexaHR.System.Installation
import NexaHR.System.RecordSteps

/-! # Saving while submitting

A save replaces the whole set of scores, carries no version, and can reach the server between the
scores of a submission and the submission itself. The record is then submitted with the scores of the
save. It keeps those that were on the screen when no save of other scores is accepted in between.

* `Call.hasScored`: a submission between its scores and its end.
* `CallSound`, `callsSound_of_run`: what is known of a call in every run without such a save.
* `submission_keeps_screen`: the submitted scores are then those on the screen when the button was pressed.
* `late_save_is_submitted`: an automatic save of two points lands in the submission of four.
-/

namespace NexaHR

open Foundations ScoreForm

set_option autoImplicit false

/-! ## The requests of the form -/

/-- The rows that a request replaces the scores with. -/
def rowsOf : RecordOperation → Option (List EvaluationScore)
  | .upsertScores scores => some scores
  | _ => none

/-- One of the four requests of the form. -/
def isFormRequest : RecordOperation → Bool
  | .upsertScores _ | .setEvaluatorComment _ | .setSpecialScore _ _ | .submitEvaluation => true
  | _ => false

/-- The record holds the rows of the drafts. -/
def Holds (recordId : Nat) (db : Database) (drafts : List ScoreDraft) : Prop :=
  ∃ r, db.evaluationRecords.get? recordId = some r ∧ r.scores = scoredRows drafts

section

variable {db : Database} {env : Env} {user : CurrentUser} {r : EvaluationRecord} {w : Work}

theorem run_scores {op : RecordOperation} (hform : isFormRequest op = true)
    (h : op.run db env user r = .ok w) : w.record.scores = (rowsOf op).getD r.scores := by
  cases op with
  | upsertScores scores =>
    change upsertScores db env user r scores = .ok w at h
    unfold upsertScores at h
    simp only [bind_eq_ok, pure_eq_ok] at h
    obtain ⟨-, -, -, -, rfl⟩ := h
    rfl
  | setEvaluatorComment evaluatorComment =>
    change setEvaluatorComment user r evaluatorComment = .ok w at h
    unfold setEvaluatorComment at h
    simp only [bind_eq_ok, pure_eq_ok] at h
    obtain ⟨-, -, rfl⟩ := h
    rfl
  | setSpecialScore bonusPoints bonusReason =>
    change setSpecialScore db env user r bonusPoints bonusReason = .ok w at h
    unfold setSpecialScore at h
    simp only [bind_eq_ok] at h
    obtain ⟨-, -, h⟩ := h
    split at h
    · cases h
    · rw [pure_eq_ok] at h
      subst h
      rfl
  | submitEvaluation =>
    obtain ⟨status, hrecord⟩ := submitEvaluation_result h
    rw [hrecord]
    rfl
  | _ => cases hform

end

/-! ## What the server takes -/

section

variable {userId recordId call : Nat} {x : Taken PageState PageEvent} {op : RecordOperation}

/-- The request of the call that is on its way to the server. -/
def PageState.current (s : PageState) (call : Nat) : Option RecordOperation :=
  (s.calls call).bind fun c => if c.phase = .sent then c.requests.head? else none

/-- In the step, the server takes the request of the call, and accepts it. -/
def Accepts (userId recordId : Nat) (x : Taken PageState PageEvent) (call : Nat)
    (op : RecordOperation) : Prop :=
  ∃ env, x.label = .deliver call env ∧ x.before.current call = some op ∧
    (step x.before.db (PageState.request userId recordId env op)).isOk = true

/-- The call is a submission whose scores were accepted, and which goes on. -/
def Call.hasScored (c : Call) : Bool :=
  c.isSubmit && match c.phase with
    | .asking => false
    | .sent => c.requests.all fun op => (rowsOf op).isNone
    | .answered accepted => accepted && !c.requests.tail.isEmpty

/-- The server accepts other scores between the scores of a submission and its end. -/
def Overwrites (userId recordId : Nat) (x : Taken PageState PageEvent) : Prop :=
  ∃ call rows m c, Accepts userId recordId x call (.upsertScores rows) ∧
    x.before.calls m = some c ∧ c.hasScored = true ∧ scoredRows c.drafts ≠ rows

/-- The step is the press of the button that starts the call. -/
def Presses (x : Taken PageState PageEvent) (call : Nat) : Prop :=
  ∃ evaluatorComment special, x.label = .press evaluatorComment special ∧ x.before.nextCall = call

def PressedOn (tr : List (Taken PageState PageEvent)) (call : Nat) (drafts : List ScoreDraft) : Prop :=
  ∃ y ∈ tr, Presses y call ∧ y.before.drafts = drafts

theorem PressedOn.later {tr : List (Taken PageState PageEvent)} {drafts : List ScoreDraft}
    (h : PressedOn tr call drafts) : PressedOn (x :: tr) call drafts := by
  obtain ⟨y, hy, hpress, hdrafts⟩ := h
  exact ⟨y, List.mem_cons_of_mem _ hy, hpress, hdrafts⟩

end

/-! ## The calls of a run -/

/-- What is known of a call: its requests are those of the form in their order, a submission was pressed
for its drafts, and while it goes on the record holds their rows. -/
structure CallSound (recordId : Nat) (tr : List (Taken PageState PageEvent)) (db : Database) (call : Nat)
    (c : Call) : Prop where
  form : ∀ op ∈ c.requests, isFormRequest op = true
  rows : ∀ op ∈ c.requests, ∀ rows, rowsOf op = some rows → rows = scoredRows c.drafts
  tail : ∀ op ∈ c.requests.tail, rowsOf op = none
  asking : c.phase = .asking → ∃ op ∈ c.requests, (rowsOf op).isSome = true
  submits : .submitEvaluation ∈ c.requests → c.isSubmit = true
  pressed : c.isSubmit = true → PressedOn tr call c.drafts
  holds : c.hasScored = true → Holds recordId db c.drafts

/-- The calls are sound, none has a number that is still to be given out, and the one that the dialogue
is about waits. -/
structure CallsSound (recordId : Nat) (tr : List (Taken PageState PageEvent)) (s : PageState) : Prop where
  sound : ∀ call c, s.calls call = some c → CallSound recordId tr s.db call c
  fresh : ∀ call, s.nextCall ≤ call → s.calls call = none
  dialog : ∀ call, s.dialog = some call → call < s.nextCall ∧
    ∀ c, s.calls call = some c → c.phase = .asking

section

variable {userId recordId call : Nat} {tr : List (Taken PageState PageEvent)} {s : PageState}
  {x : Taken PageState PageEvent} {db : Database} {c : Call}

theorem CallSound.later (h : CallSound recordId tr db call c) : CallSound recordId (x :: tr) db call c where
  form := h.form
  rows := h.rows
  tail := h.tail
  asking := h.asking
  submits := h.submits
  pressed := fun hsubmit => (h.pressed hsubmit).later
  holds := h.holds

/-- What holds of the calls holds of them after an update whose call it holds of. -/
theorem calls_update {P : Nat → Call → Prop} {calls : Nat → Option Call} {o : Option Call}
    (h : ∀ n c, calls n = some c → P n c) (ho : ∀ c, o = some c → P call c) :
    ∀ n c, Function.update calls call o n = some c → P n c := by
  intro n c hn
  by_cases heq : n = call
  · rw [heq, Function.update_self] at hn
    rw [heq]
    exact ho c hn
  · rw [Function.update_of_ne heq] at hn
    exact h n c hn

theorem rowsOf_specialRequests {special : SpecialScore} {op : RecordOperation}
    (h : op ∈ specialRequests special) : rowsOf op = none ∧ isFormRequest op = true ∧
      op ≠ .submitEvaluation := by
  unfold specialRequests at h
  obtain ⟨given, -, rfl⟩ := List.mem_map.mp h
  refine ⟨rfl, rfl, ?_⟩
  intro hop
  cases hop

/-- A save as it starts. -/
theorem callSound_save (drafts : List ScoreDraft) (special : SpecialScore) :
    CallSound recordId tr db call ⟨false, drafts, .sent, saveRequests drafts special⟩ where
  form := by
    intro op hop
    rcases List.mem_cons.mp hop with rfl | hop
    · rfl
    · exact (rowsOf_specialRequests hop).2.1
  rows := by
    intro op hop rows hrows
    rcases List.mem_cons.mp hop with rfl | hop
    · exact (Option.some.inj hrows).symm
    · rw [(rowsOf_specialRequests hop).1] at hrows
      cases hrows
  tail := fun op hop => (rowsOf_specialRequests hop).1
  asking := fun hphase => by cases hphase
  submits := by
    intro hop
    rcases List.mem_cons.mp hop with hop | hop
    · cases hop
    · exact absurd rfl (rowsOf_specialRequests hop).2.2
  pressed := fun hsubmit => by cases hsubmit
  holds := fun hscored => by cases hscored

theorem mem_submitRequests_tail {evaluatorComment : String} {special : SpecialScore} {op : RecordOperation}
    (h : op ∈ .setEvaluatorComment evaluatorComment :: (specialRequests special ++ [.submitEvaluation])) :
    rowsOf op = none ∧ isFormRequest op = true := by
  rcases List.mem_cons.mp h with rfl | h
  · exact ⟨rfl, rfl⟩
  · rcases List.mem_append.mp h with h | h
    · obtain ⟨hrows, hform, -⟩ := rowsOf_specialRequests h
      exact ⟨hrows, hform⟩
    · rw [List.mem_singleton.mp h]
      exact ⟨rfl, rfl⟩

/-- A submission as it is pressed. -/
theorem callSound_submit {drafts : List ScoreDraft} (evaluatorComment : String) (special : SpecialScore)
    (hpressed : PressedOn tr call drafts) :
    CallSound recordId tr db call ⟨true, drafts, .asking, submitRequests drafts evaluatorComment special⟩ where
  form := by
    intro op hop
    rcases List.mem_cons.mp hop with rfl | hop
    · rfl
    · exact (mem_submitRequests_tail hop).2
  rows := by
    intro op hop rows hrows
    rcases List.mem_cons.mp hop with rfl | hop
    · exact (Option.some.inj hrows).symm
    · rw [(mem_submitRequests_tail hop).1] at hrows
      cases hrows
  tail := fun op hop => (mem_submitRequests_tail hop).1
  asking := fun _ => ⟨_, List.mem_cons_self, rfl⟩
  submits := fun _ => rfl
  pressed := fun _ => hpressed
  holds := fun hscored => by cases hscored

/-- The confirmed submission has not scored yet. -/
theorem CallSound.confirmed (h : CallSound recordId tr db call c) (hphase : c.phase = .asking) :
    CallSound recordId tr db call { c with phase := .sent } where
  form := h.form
  rows := h.rows
  tail := h.tail
  asking := fun hsent => by cases hsent
  submits := h.submits
  pressed := h.pressed
  holds := by
    intro hscored
    unfold Call.hasScored at hscored
    rw [Bool.and_eq_true, List.all_eq_true] at hscored
    obtain ⟨op, hop, hrows⟩ := h.asking hphase
    have hnone := hscored.2 op hop
    rw [Option.isNone_iff_eq_none] at hnone
    rw [hnone] at hrows
    cases hrows

/-- The call that goes on with its next request. -/
theorem CallSound.proceeded (h : CallSound recordId tr db call c) (hphase : c.phase = .answered true)
    (hrest : c.requests.tail ≠ []) :
    CallSound recordId tr db call { c with phase := .sent, requests := c.requests.tail } where
  form := fun op hop => h.form op (List.mem_of_mem_tail hop)
  rows := fun op hop => h.rows op (List.mem_of_mem_tail hop)
  tail := fun op hop => h.tail op (List.mem_of_mem_tail hop)
  asking := fun hsent => by cases hsent
  submits := fun hop => h.submits (List.mem_of_mem_tail hop)
  pressed := h.pressed
  holds := by
    intro hscored
    apply h.holds
    unfold Call.hasScored at hscored ⊢
    rw [Bool.and_eq_true] at hscored ⊢
    refine ⟨hscored.1, ?_⟩
    rw [hphase]
    simpa using hrest

end

/-! ## Every step of the page -/

section

variable {userId recordId call : Nat} {tr : List (Taken PageState PageEvent)} {s s' : PageState}
  {x : Taken PageState PageEvent} {db : Database} {c : Call} {op : RecordOperation}

/-- An accepted request of the form stores its rows, and leaves the scores when it has none. -/
theorem accepted_scores {env : Env} (hform : isFormRequest op = true)
    (h : (step db (PageState.request userId recordId env op)).isOk = true) :
    ∃ r r', db.evaluationRecords.get? recordId = some r ∧
      (settled db (PageState.request userId recordId env op)).evaluationRecords.get? recordId = some r' ∧
      r'.scores = (rowsOf op).getD r.scores := by
  obtain ⟨user, r, w, -, hget, hwork, hget'⟩ := step_onRecord rfl (steps_settled h)
  exact ⟨r, w.record, hget, hget', run_scores hform hwork⟩

theorem settled_refused {req : Request} (h : ¬(step db req).isOk = true) : settled db req = db := by
  unfold settled
  cases hstep : step db req with
  | ok db' =>
    rw [hstep] at h
    exact absurd rfl h
  | error e => rfl

/-- A request of one call leaves what the record holds for a submission that goes on. -/
theorem holds_settled {env : Env} {drafts : List ScoreDraft} (hform : isFormRequest op = true)
    (hsame : (step db (PageState.request userId recordId env op)).isOk = true →
      ∀ rows, rowsOf op = some rows → scoredRows drafts = rows)
    (h : Holds recordId db drafts) :
    Holds recordId (settled db (PageState.request userId recordId env op)) drafts := by
  by_cases hok : (step db (PageState.request userId recordId env op)).isOk = true
  · obtain ⟨r, r', hget, hget', hscores⟩ := accepted_scores hform hok
    obtain ⟨r₀, hget₀, hscores₀⟩ := h
    rw [hget] at hget₀
    cases hget₀
    refine ⟨r', hget', ?_⟩
    rw [hscores]
    cases hrows : rowsOf op with
    | none => exact hscores₀
    | some rows => exact (hsame hok rows hrows).symm
  · rw [settled_refused hok]
    exact h

/-- The call whose request the server took. -/
theorem CallSound.delivered {env : Env} {rest : List RecordOperation}
    (h : CallSound recordId tr s.db call c) (hphase : c.phase = .sent) (hcurrent : c.requests = op :: rest)
    {accepted : Bool}
    (haccepted : accepted = (step s.db (PageState.request userId recordId env op)).isOk) :
    CallSound recordId tr (settled s.db (PageState.request userId recordId env op)) call
      { c with phase := .answered accepted } where
  form := h.form
  rows := h.rows
  tail := h.tail
  asking := fun hasking => by cases hasking
  submits := h.submits
  pressed := h.pressed
  holds := by
    intro hscored
    have hmem : op ∈ c.requests := by
      rw [hcurrent]
      exact List.mem_cons_self
    unfold Call.hasScored at hscored
    simp only [Bool.and_eq_true] at hscored
    obtain ⟨hsubmit, hok, -⟩ := hscored
    rw [haccepted] at hok
    cases hrows : rowsOf op with
    | some rows =>
      obtain ⟨r, r', -, hget', hscores⟩ := accepted_scores (h.form op hmem) hok
      refine ⟨r', hget', ?_⟩
      rw [hscores, hrows]
      exact h.rows op hmem rows hrows
    | none =>
      have hbefore : c.hasScored = true := by
        unfold Call.hasScored
        rw [Bool.and_eq_true, hphase, List.all_eq_true]
        refine ⟨hsubmit, ?_⟩
        intro o ho
        rw [Option.isNone_iff_eq_none]
        rw [hcurrent] at ho
        rcases List.mem_cons.mp ho with rfl | ho
        · exact hrows
        · apply h.tail
          rw [hcurrent]
          exact ho
      apply holds_settled (h.form op hmem) _ (h.holds hbefore)
      intro _ rows hsome
      rw [hrows] at hsome
      cases hsome

/-- A call that begins. -/
theorem CallsSound.begun (h : CallsSound recordId tr s)
    (hc : CallSound recordId (x :: tr) s.db s.nextCall c) :
    (∀ n d, Function.update s.calls s.nextCall (some c) n = some d →
      CallSound recordId (x :: tr) s.db n d) ∧
    ∀ n, s.nextCall + 1 ≤ n → Function.update s.calls s.nextCall (some c) n = none := by
  constructor
  · apply calls_update
    · intro n d hd
      exact (h.sound n d hd).later
    · intro d hd
      rw [← Option.some.inj hd]
      exact hc
  · intro n hn
    rw [Function.update_of_ne (by omega)]
    exact h.fresh n (by omega)

theorem CallsSound.startSave (h : CallsSound recordId tr s) (special : SpecialScore) :
    CallsSound recordId (x :: tr) (s.startSave special) := by
  obtain ⟨hsound, hfresh⟩ := h.begun (x := x) (callSound_save s.drafts special)
  refine ⟨hsound, hfresh, ?_⟩
  intro n hn
  obtain ⟨hlt, hasking⟩ := h.dialog n hn
  refine ⟨Nat.lt_succ_of_lt hlt, ?_⟩
  intro d hd
  change Function.update s.calls s.nextCall _ n = some d at hd
  rw [Function.update_of_ne (by omega)] at hd
  exact hasking d hd

theorem CallsSound.startSubmit {evaluatorComment : String} {special : SpecialScore}
    (h : CallsSound recordId tr s)
    (hx : x.before = s) (hlabel : x.label = .press evaluatorComment special) :
    CallsSound recordId (x :: tr) (s.startSubmit evaluatorComment special) := by
  have hpressed : PressedOn (x :: tr) s.nextCall s.drafts := by
    refine ⟨x, List.mem_cons_self, ⟨_, _, hlabel, ?_⟩, ?_⟩
    · rw [hx]
    · rw [hx]
  obtain ⟨hsound, hfresh⟩ := h.begun (callSound_submit evaluatorComment special hpressed)
  refine ⟨hsound, hfresh, ?_⟩
  intro n hn
  have heq : s.nextCall = n := Option.some.inj hn
  refine ⟨by change n < s.nextCall + 1; omega, ?_⟩
  intro d hd
  change Function.update s.calls s.nextCall _ n = some d at hd
  rw [heq, Function.update_self] at hd
  rw [← Option.some.inj hd]

/-- The calls after one of them changed, with the same database or another. -/
theorem CallsSound.changed (call : Nat) {s₁ : PageState} {o : Option Call} (h : CallsSound recordId tr s)
    (hcalls : s₁.calls = Function.update s.calls call o) (hnext : s₁.nextCall = s.nextCall)
    (hdialog : s₁.dialog = none ∨ s₁.dialog = s.dialog ∧ (o = none ∨ s.dialog ≠ some call))
    (hnone : s.calls call = none → o = none)
    (ho : ∀ c, o = some c → CallSound recordId (x :: tr) s₁.db call c)
    (hother : ∀ n c, n ≠ call → s.calls n = some c → CallSound recordId (x :: tr) s₁.db n c) :
    CallsSound recordId (x :: tr) s₁ where
  sound := by
    intro n d hn
    rw [hcalls] at hn
    by_cases heq : n = call
    · rw [heq, Function.update_self] at hn
      rw [heq]
      exact ho d hn
    · rw [Function.update_of_ne heq] at hn
      exact hother n d heq hn
  fresh := by
    intro n hn
    rw [hnext] at hn
    rw [hcalls]
    by_cases heq : n = call
    · rw [heq, Function.update_self]
      apply hnone
      rw [← heq]
      exact h.fresh n hn
    · rw [Function.update_of_ne heq]
      exact h.fresh n hn
  dialog := by
    intro n hn
    rcases hdialog with hclosed | ⟨hopen, hcall⟩
    · rw [hclosed] at hn
      cases hn
    · rw [hopen] at hn
      obtain ⟨hlt, hasking⟩ := h.dialog n hn
      refine ⟨by omega, ?_⟩
      intro d hd
      rw [hcalls] at hd
      by_cases heq : n = call
      · rw [heq, Function.update_self] at hd
        rcases hcall with hnone | hne
        · rw [hnone] at hd
          cases hd
        · exact absurd (heq ▸ hn) hne
      · rw [Function.update_of_ne heq] at hd
        exact hasking d hd

/-- The calls of a page whose screen, timer or buttons changed. -/
theorem CallsSound.screen {s₁ : PageState} (h : CallsSound recordId tr s) (hdb : s₁.db = s.db)
    (hcalls : s₁.calls = s.calls) (hnext : s₁.nextCall = s.nextCall) (hdialog : s₁.dialog = s.dialog) :
    CallsSound recordId (x :: tr) s₁ where
  sound := by
    intro n c hn
    rw [hcalls] at hn
    rw [hdb]
    exact (h.sound n c hn).later
  fresh := by
    rw [hcalls, hnext]
    exact h.fresh
  dialog := by
    rw [hcalls, hnext, hdialog]
    exact h.dialog

theorem CallsSound.confirm (h : CallsSound recordId tr s) (hdialog : s.dialog = some call) :
    CallsSound recordId (x :: tr) { s.setPhase call .sent with saving := true, dialog := none } := by
  obtain ⟨-, hasking⟩ := h.dialog call hdialog
  refine h.changed call rfl rfl (Or.inl rfl) ?_ ?_ ?_
  · intro hnone
    rw [hnone]
    rfl
  · intro c hc
    obtain ⟨c₀, hc₀, rfl⟩ := Option.map_eq_some_iff.mp hc
    exact ((h.sound call c₀ hc₀).confirmed (hasking c₀ hc₀)).later
  · intro n c _ hn
    exact (h.sound n c hn).later

theorem CallsSound.decline (h : CallsSound recordId tr s) :
    CallsSound recordId (x :: tr)
      { s with calls := Function.update s.calls call none, dialog := none } := by
  refine h.changed call rfl rfl (Or.inl rfl) (fun _ => rfl) ?_ ?_
  · intro c hc
    cases hc
  · intro n c _ hn
    exact (h.sound n c hn).later

/-- A call that goes on waits for no answer of the dialog. -/
theorem CallsSound.not_asked (h : CallsSound recordId tr s) (hcall : s.calls call = some c)
    (hphase : c.phase ≠ .asking) : s.dialog ≠ some call := by
  intro hdialog
  exact hphase ((h.dialog call hdialog).2 c hcall)

theorem rowsOf_eq_some {rows : List EvaluationScore} (h : rowsOf op = some rows) :
    op = .upsertScores rows := by
  cases op with
  | upsertScores scores => exact congrArg RecordOperation.upsertScores (Option.some.inj h)
  | _ => cases h

theorem CallsSound.deliver {env : Env} {rest : List RecordOperation} (h : CallsSound recordId tr s)
    (hcall : s.calls call = some c) (hphase : c.phase = .sent) (hcurrent : c.requests = op :: rest)
    (hx : x.before = s) (hlabel : x.label = .deliver call env)
    (hquiet : ¬Overwrites userId recordId x) :
    CallsSound recordId (x :: tr) (s.process userId recordId call env op) := by
  have hsound := h.sound call c hcall
  have hform : isFormRequest op = true := hsound.form op (by rw [hcurrent]; exact List.mem_cons_self)
  refine h.changed call
    (o := some { c with
      phase := .answered (step s.db (PageState.request userId recordId env op)).isOk }) ?_ rfl ?_ ?_ ?_ ?_
  · unfold PageState.process PageState.setPhase
    rw [hcall]
    rfl
  · refine Or.inr ⟨rfl, Or.inr (h.not_asked hcall ?_)⟩
    rw [hphase]
    decide
  · intro hnone
    rw [hcall] at hnone
    cases hnone
  · intro d hd
    rw [← Option.some.inj hd]
    exact (hsound.delivered hphase hcurrent rfl).later
  · intro n d _ hn
    have hd := h.sound n d hn
    refine CallSound.later ⟨hd.form, hd.rows, hd.tail, hd.asking, hd.submits, hd.pressed, ?_⟩
    intro hscored
    apply holds_settled hform _ (hd.holds hscored)
    intro hok rows hrows
    -- Other rows would overwrite those of the submission that goes on.
    by_contra hne
    apply hquiet
    have hop := rowsOf_eq_some hrows
    refine ⟨call, rows, n, d, ⟨env, hlabel, ?_, ?_⟩, ?_, hscored, hne⟩
    · rw [hx, ← hop]
      unfold PageState.current
      rw [hcall]
      simp [hphase, hcurrent]
    · rw [hx, ← hop]
      exact hok
    · rw [hx]
      exact hn

theorem CallsSound.receive {accepted : Bool} (h : CallsSound recordId tr s)
    (hcall : s.calls call = some c) (hphase : c.phase = .answered accepted) :
    CallsSound recordId (x :: tr) (s.proceed call c accepted) := by
  have hother : ∀ n d, n ≠ call → s.calls n = some d → CallSound recordId (x :: tr) s.db n d := by
    intro n d _ hn
    exact (h.sound n d hn).later
  unfold PageState.proceed
  split
  next hgoes =>
    obtain ⟨haccepted, hrest⟩ := hgoes
    rw [haccepted] at hphase
    refine h.changed call rfl rfl (Or.inr ⟨rfl, Or.inr (h.not_asked hcall ?_)⟩) ?_ ?_ hother
    · rw [hphase]
      exact fun hasking => by cases hasking
    · intro hnone
      rw [hcall] at hnone
      cases hnone
    · intro d hd
      rw [← Option.some.inj hd]
      exact ((h.sound call c hcall).proceeded hphase hrest).later
  next =>
    refine h.changed call rfl rfl (Or.inr ⟨rfl, Or.inl rfl⟩) (fun _ => rfl) ?_ hother
    intro d hd
    cases hd

theorem callsSound_step {e : PageEvent} (h : CallsSound recordId tr s)
    (hnext : PageSteps userId recordId s e s') (hquiet : ¬Overwrites userId recordId ⟨s, e, s'⟩) :
    CallsSound recordId (⟨s, e, s'⟩ :: tr) s' := by
  unfold PageSteps at hnext
  cases e with
  | edit drafts =>
    rw [← Option.some.inj hnext]
    exact h.screen rfl rfl rfl rfl
  | autosave special =>
    obtain ⟨-, hs'⟩ := Option.ite_none_right_eq_some.mp hnext
    have hstarted : CallsSound recordId (⟨s, .autosave special, s'⟩ :: tr) (s.startSave special) :=
      h.startSave special
    rw [← Option.some.inj hs'] at hstarted ⊢
    exact ⟨hstarted.sound, hstarted.fresh, hstarted.dialog⟩
  | saveDraft special =>
    obtain ⟨-, hs'⟩ := Option.ite_none_left_eq_some.mp hnext
    rw [← Option.some.inj hs']
    exact h.startSave special
  | press evaluatorComment special =>
    obtain ⟨-, hs'⟩ := Option.ite_none_right_eq_some.mp hnext
    rw [← Option.some.inj hs']
    exact h.startSubmit rfl rfl
  | confirm =>
    obtain ⟨call, hdialog, rfl⟩ := Option.map_eq_some_iff.mp hnext
    exact h.confirm hdialog
  | decline =>
    obtain ⟨call, -, rfl⟩ := Option.map_eq_some_iff.mp hnext
    exact h.decline
  | deliver call env =>
    simp only [PageState.next] at hnext
    split at hnext
    next isSubmit drafts op rest hcall =>
      rw [← Option.some.inj hnext]
      exact h.deliver hcall rfl rfl rfl rfl hquiet
    next => cases hnext
  | receive call =>
    simp only [PageState.next] at hnext
    split at hnext
    next c hcall =>
      split at hnext
      next accepted hphase =>
        rw [← Option.some.inj hnext]
        exact h.receive hcall hphase
      next => cases hnext
    next => cases hnext

theorem callsSound_of_run (h : PageRun userId recordId tr s)
    (hquiet : ∀ x ∈ tr, ¬Overwrites userId recordId x) : CallsSound recordId tr s := by
  refine h.invariant_of_history (P := CallsSound recordId) (C := fun x => ¬Overwrites userId recordId x)
    ?_ ?_ hquiet
  · intro s hopened
    refine ⟨?_, fun call _ => hopened.calls call, ?_⟩
    · intro call c hcall
      rw [hopened.calls call] at hcall
      cases hcall
    · intro call hdialog
      rw [hopened.dialog] at hdialog
      cases hdialog
  · intro tr s e s' ih hnext hstep
    exact callsSound_step ih hnext hstep

end

/-! ## What is submitted -/

/-- The step leaves the record with the rows of the drafts and with their result. -/
def StoresScreen (recordId : Nat) (x : Taken PageState PageEvent) (drafts : List ScoreDraft) : Prop :=
  ∃ r r', x.before.db.evaluationRecords.get? recordId = some r ∧
    x.after.db.evaluationRecords.get? recordId = some r' ∧
    r'.scores = scoredRows drafts ∧
    r'.finalWeightedPct = some (computeResult (scoredRows drafts) (indicatorsForRecord x.before.db r)
      (rulesForRecord x.before.db r) (r.bonusPoints.getD 0)).finalWeightedPct

section

variable {userId recordId call : Nat} {tr : List (Taken PageState PageEvent)} {s : PageState}
  {x : Taken PageState PageEvent}

/-- The call behind a request that the server takes. -/
theorem current_eq_some {op : RecordOperation} (h : s.current call = some op) :
    ∃ c rest, s.calls call = some c ∧ c.phase = .sent ∧ c.requests = op :: rest := by
  unfold PageState.current at h
  obtain ⟨c, hcall, hc⟩ := Option.bind_eq_some_iff.mp h
  obtain ⟨hphase, hhead⟩ := Option.ite_none_right_eq_some.mp hc
  obtain ⟨rest, hrequests⟩ := List.head?_eq_some_iff.mp hhead
  exact ⟨c, rest, hcall, hphase, hrequests⟩

theorem deliver_after {env : Env} {op : RecordOperation}
    (hstep : PageSteps userId recordId x.before x.label x.after) (hlabel : x.label = .deliver call env)
    (hcurrent : x.before.current call = some op) :
    x.after.db = settled x.before.db (PageState.request userId recordId env op) := by
  obtain ⟨⟨isSubmit, drafts, phase, requests⟩, rest, hcall, hphase, hrequests⟩ :=
    current_eq_some hcurrent
  change phase = .sent at hphase
  change requests = op :: rest at hrequests
  subst hphase hrequests
  unfold PageSteps at hstep
  rw [hlabel] at hstep
  simp only [PageState.next, hcall] at hstep
  rw [← Option.some.inj hstep]
  rfl

/-- In a run where no save of other scores is accepted between the scores of a submission and its end,
every accepted submission stores what was on the screen when its button was pressed. -/
theorem submission_keeps_screen (h : PageRun userId recordId tr s)
    (hquiet : ∀ x ∈ tr, ¬Overwrites userId recordId x) (hx : x ∈ tr)
    (hsubmit : Accepts userId recordId x call .submitEvaluation) :
    ∃ drafts, PressedOn tr call drafts ∧ StoresScreen recordId x drafts := by
  obtain ⟨⟨old, hrun, hold⟩, hstep⟩ := h.step_of_mem hx
  obtain ⟨env, hlabel, hcurrent, hok⟩ := hsubmit
  have hcalls := callsSound_of_run hrun fun y hy => hquiet y (hold y hy)
  obtain ⟨c, rest, hcall, hphase, hrequests⟩ := current_eq_some hcurrent
  have hsound := hcalls.sound call c hcall
  have hsubmits : c.isSubmit = true := hsound.submits (by rw [hrequests]; exact List.mem_cons_self)
  have hscored : c.hasScored = true := by
    unfold Call.hasScored
    rw [Bool.and_eq_true, hphase, List.all_eq_true]
    refine ⟨hsubmits, ?_⟩
    intro op hop
    rw [hrequests] at hop
    rcases List.mem_cons.mp hop with rfl | hop
    · rfl
    · rw [hsound.tail op (by rw [hrequests]; exact hop)]
      rfl
  obtain ⟨y, hy, hpress, hdrafts⟩ := hsound.pressed hsubmits
  refine ⟨c.drafts, ⟨y, hold y hy, hpress, hdrafts⟩, ?_⟩
  obtain ⟨r, hget, hscores⟩ := hsound.holds hscored
  obtain ⟨user, r₀, w, -, hget₀, hwork, hget'⟩ := step_onRecord rfl (steps_settled hok)
  rw [hget] at hget₀
  cases hget₀
  obtain ⟨status, hrecord⟩ := submitEvaluation_result hwork
  rw [← deliver_after hstep hlabel hcurrent] at hget'
  refine ⟨r, w.record, hget, hget', ?_, ?_⟩
  · rw [hrecord]
    exact hscores
  · rw [hrecord, ← hscores]
    rfl

end

/-! ## A late save -/

deriving instance DecidableEq for RecordOperation

/-- No submission goes on when the step delivers scores. -/
def isQuiet (x : Taken PageState PageEvent) : Bool :=
  match x.label with
  | .deliver call _ =>
    ((x.before.current call).bind rowsOf).isNone ||
      (List.range x.before.nextCall).all fun m => (x.before.calls m).all fun c => !c.hasScored
  | _ => true

section

variable {userId recordId call : Nat} {tr : List (Taken PageState PageEvent)} {s : PageState}
  {x : Taken PageState PageEvent}

theorem not_overwrites (hcalls : CallsSound recordId tr x.before) (h : isQuiet x = true) :
    ¬Overwrites userId recordId x := by
  intro hover
  obtain ⟨call, rows, m, c, ⟨env, hlabel, hcurrent, -⟩, hcall, hscored, -⟩ := hover
  have hlt : m < x.before.nextCall := by
    by_contra hge
    rw [hcalls.fresh m (by omega)] at hcall
    cases hcall
  unfold isQuiet at h
  rw [hlabel] at h
  simp only [hcurrent, Option.bind_some, rowsOf, Option.isNone_some, Bool.false_or,
    List.all_eq_true] at h
  have hnot := h m (List.mem_range.mpr hlt)
  rw [hcall] at hnot
  simp [hscored] at hnot

theorem never_overwrites (h : PageRun userId recordId tr s) (hquiet : ∀ x ∈ tr, isQuiet x = true) :
    ∀ x ∈ tr, ¬Overwrites userId recordId x := by
  have hboth : CallsSound recordId tr s ∧ ∀ x ∈ tr, ¬Overwrites userId recordId x := by
    refine h.invariant_of_history (C := fun x => isQuiet x = true)
      (P := fun tr s => CallsSound recordId tr s ∧ ∀ x ∈ tr, ¬Overwrites userId recordId x) ?_ ?_ hquiet
    · intro s hopened
      have hempty : PageRun userId recordId [] s := Run.nil hopened
      exact ⟨callsSound_of_run hempty (by simp), by simp⟩
    · intro tr s e s' ih hnext hstep
      have hnot : ¬Overwrites userId recordId ⟨s, e, s'⟩ := not_overwrites ih.1 hstep
      refine ⟨callsSound_step ih.1 hnext hnot, ?_⟩
      intro y hy
      rcases List.mem_cons.mp hy with rfl | hy
      · exact hnot
      · exact ih.2 y hy
  exact hboth.2

end

/-- The page of the first account on the first record. An event that is out of turn changes nothing. -/
def pageNext (s : PageState) (e : PageEvent) : PageState := (s.next 1 1 e).getD s

/-- The page as the supervisor opens it. -/
def openedPage : PageState where
  db := endState settled (office fullChain) [ask 1 (.createEvaluation 1)]
  drafts := [⟨1, none, ""⟩]
  timer := false
  saving := false
  dialog := none
  calls := fun _ => none
  nextCall := 0

theorem pageRun_replay (es : List PageEvent)
    (htaken : ((replay pageNext openedPage es).all fun x => (x.before.next 1 1 x.label).isSome) = true) :
    PageRun 1 1 (replay pageNext openedPage es) (endState pageNext openedPage es) := by
  apply run_replay
  · exact ⟨rfl, rfl, rfl, fun _ => rfl⟩
  · intro x hx
    have hsome := List.all_eq_true.mp htaken x hx
    have hafter : x.after = pageNext x.before x.label := after_replay hx
    obtain ⟨s', hs'⟩ := Option.isSome_iff_exists.mp hsome
    unfold PageSteps
    rw [hafter, hs']
    unfold pageNext
    rw [hs']
    rfl

def draftOf (score : Nat) : List ScoreDraft := [⟨1, some score, ""⟩]

/-- A submission of four points, the newest event first. -/
def submittedInPeace : List PageEvent :=
  [.deliver 0 someDay, .receive 0, .deliver 0 someDay, .receive 0, .deliver 0 someDay, .confirm,
    .press "" none, .edit (draftOf 4)]

/-- The first automatic save is slow: it is overtaken by the second one and by the scores of the
submission. -/
def submittedWithLateSave : List PageEvent :=
  [.deliver 2 someDay, .receive 2, .deliver 2 someDay, .deliver 0 someDay, .receive 2, .deliver 2 someDay,
    .confirm, .press "" none, .receive 1, .deliver 1 someDay, .autosave none, .edit (draftOf 4),
    .autosave none, .edit (draftOf 2)]

/-- The last step of the events is the accepted submission of the call. -/
def submitsAtLast (call : Nat) (es : List PageEvent) : Bool :=
  (replay pageNext openedPage es).head?.any fun x =>
    decide (x.before.current call = some .submitEvaluation) &&
      match x.label with
      | .deliver n env =>
        decide (n = call) && (step x.before.db (PageState.request 1 1 env .submitEvaluation)).isOk
      | _ => false

theorem accepts_of_submitsAtLast (call : Nat) (es : List PageEvent)
    (h : submitsAtLast call es = true) :
    ∃ x ∈ replay pageNext openedPage es, (replay pageNext openedPage es).head? = some x ∧
      Accepts 1 1 x call .submitEvaluation := by
  obtain ⟨x, hx, hchecks⟩ := exists_of_any h
  rw [Bool.and_eq_true, decide_eq_true_eq] at hchecks
  obtain ⟨hcurrent, hlabel⟩ := hchecks
  refine ⟨x, List.mem_of_mem_head? hx, hx, ?_⟩
  split at hlabel
  next n env hdeliver =>
    rw [Bool.and_eq_true, decide_eq_true_eq] at hlabel
    obtain ⟨rfl, hok⟩ := hlabel
    exact ⟨env, hdeliver, hcurrent, hok⟩
  next => cases hlabel

theorem peaceful_submission_keeps_screen : ∃ x ∈ replay pageNext openedPage submittedInPeace,
    Accepts 1 1 x 0 .submitEvaluation ∧
      ∃ drafts, PressedOn (replay pageNext openedPage submittedInPeace) 0 drafts ∧
        StoresScreen 1 x drafts := by
  obtain ⟨x, hx, -, haccepts⟩ :=
    accepts_of_submitsAtLast 0 submittedInPeace (by decide)
  have hrun := pageRun_replay submittedInPeace (by decide)
  have hquiet : ((replay pageNext openedPage submittedInPeace).all isQuiet) = true := by decide
  exact ⟨x, hx, haccepts, submission_keeps_screen hrun
    (never_overwrites hrun (List.all_eq_true.mp hquiet)) hx haccepts⟩

/-- The supervisor pressed the button on four points, and the record is submitted with two. -/
theorem late_save_is_submitted :
    ¬∀ userId recordId tr s x call, PageRun userId recordId tr s → x ∈ tr →
      Accepts userId recordId x call .submitEvaluation →
      ∃ drafts, PressedOn tr call drafts ∧ StoresScreen recordId x drafts := by
  intro hclaim
  obtain ⟨x, hx, hlast, haccepts⟩ :=
    accepts_of_submitsAtLast 2 submittedWithLateSave (by decide)
  have hrun := pageRun_replay submittedWithLateSave (by decide)
  obtain ⟨drafts, ⟨y, hy, ⟨_, _, hpress, hcall⟩, hdrafts⟩, r, r', -, hget', hscores, -⟩ :=
    hclaim 1 1 _ _ x 2 hrun hx haccepts
  have hscreen : ((replay pageNext openedPage submittedWithLateSave).all fun y =>
      match y.label with
      | .press _ _ => decide (scoredRows y.before.drafts = scoredRows (draftOf 4))
      | _ => true) = true := by decide
  have hfour := List.all_eq_true.mp hscreen y hy
  rw [hpress, decide_eq_true_eq, hdrafts] at hfour
  have hstored : ((replay pageNext openedPage submittedWithLateSave).head?.any fun x =>
      (x.after.db.evaluationRecords.get? 1).all fun r =>
        decide (r.scores = scoredRows (draftOf 2))) = true := by decide
  rw [hlast] at hstored
  simp only [Option.any_some, hget', Option.all_some, decide_eq_true_eq] at hstored
  rw [hstored, hfour] at hscores
  exact absurd hscores (by decide)

end NexaHR
