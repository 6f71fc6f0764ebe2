import NexaHR.System.ConfirmationSteps
import NexaHR.System.Installation

/-! # At most one execution

The claim is what makes requests for one action exclusive: it is the only way from "pending" to "executing",
and no write leads back to "pending". The expiry of the action is checked before the claim and not again.

* `claims_of_steps`: the claim keeps to the rules of `Claims`.
* `ClaimedStatus`: the status of an action that a request has claimed.
* `action_executes_once`: the tool of an action runs once at most, never after a reject, only for the user it
  was proposed to, and never after the deadline, if that does not pass between the check and the tool.
* `expired_action_executes`: where it does pass, the tool runs.
-/

namespace NexaHR

open Foundations

set_option autoImplicit false

section

variable {registry : Registry} {s s' : Assistant} {e : AssistantStep} {now r k : Nat}
  {x y : Taken Assistant AssistantStep} {tr new old : List (Taken Assistant AssistantStep)}

/-! ## Claims -/

/-- Nobody has claimed or decided the action. -/
def Undecided (k : Nat) (s : Assistant) : Prop :=
  s.actions.seq < k ∨ ∃ row, s.actions.get? k = some row ∧ row.status = .pending

/-- The request has claimed the action and did not run its tool yet. -/
def HoldsClaim (k r : Nat) (s : Assistant) : Prop :=
  ∃ request checkedAt, s.requests r = some (.claimed request checkedAt) ∧ request.row.id = k

/-- The request has claimed the action and did not record the outcome yet. -/
def Engaged (k r : Nat) (s : Assistant) : Prop :=
  HoldsClaim k r s ∨ ∃ request outcome, s.requests r = some (.executed request outcome) ∧ request.row.id = k

/-- What may change of a row: a decided action does not become pending again. -/
def ActionLater (a b : AiPendingAction) : Prop :=
  b.toProposal = a.toProposal ∧ (b.status = .pending → a.status = .pending)

theorem ActionLater.refl (a : AiPendingAction) : ActionLater a a := ⟨rfl, id⟩

theorem ActionLater.trans (a b c : AiPendingAction) (h : ActionLater a b) (h' : ActionLater b c) :
    ActionLater a c :=
  ⟨h'.1.trans h.1, fun hpending => h.2 (h'.2 hpending)⟩

theorem later_of_put {row row' : AiPendingAction} {j : Nat} (hactions : s'.actions = s.actions.put row')
    (hget : s.actions.get? j = some row) (hid : row.id = row'.id) (hlater : ActionLater row row') :
    Table.Later ActionLater s.actions s'.actions := by
  rw [hactions]
  exact Table.later_put ActionLater.refl (Table.mem_of_get? hget) hid hlater

theorem later_of_effect (h : StepEffect registry s now s') :
    Table.Later ActionLater s.actions s'.actions := by
  cases h with
  | kept hactions _ =>
    rw [hactions]
    exact Table.Later.refl ActionLater.refl _
  | advanced _ _ _ hactions _ =>
    rw [hactions]
    exact Table.Later.refl ActionLater.refl _
  | proposed mk hmk _ hactions _ =>
    rw [hactions]
    exact Table.later_insert ActionLater.refl _ hmk
  | deleted keep hactions _ =>
    rw [hactions]
    exact Table.later_filter ActionLater.refl _ keep
  | expired _ _ _ _ row hget hactions _ =>
    exact later_of_put hactions hget rfl ⟨rfl, fun hpending => by cases hpending⟩
  | claimed _ _ _ _ row hget hpending hactions _ =>
    exact later_of_put hactions hget rfl ⟨rfl, fun _ => hpending⟩
  | rejected _ row hget hpending hactions _ =>
    exact later_of_put hactions hget rfl ⟨rfl, fun _ => hpending⟩
  | recorded _ _ _ _ row hget status text hdecided hactions _ =>
    refine later_of_put hactions hget rfl ⟨rfl, ?_⟩
    intro hpending
    have hstatus : status = .pending := hpending
    rw [hstatus] at hdecided
    simp at hdecided

theorem undecided_before (h : StepEffect registry s now s') (hundecided : Undecided k s') :
    Undecided k s := by
  have hlater := later_of_effect h
  obtain hnew | ⟨row, hget, hpending⟩ := hundecided
  · have hle := hlater.seq_le
    left
    omega
  · have hid : row.id = k := Table.id_of_get? hget
    obtain ⟨old, hold, hkey, hrow⟩ | hnew := hlater.rows row (Table.mem_of_get? hget)
    · right
      refine ⟨old, Table.get?_eq_some.mpr ⟨hold, ?_⟩, hrow.2 hpending⟩
      rw [hkey]
      exact hid
    · left
      rw [← hid]
      exact hnew

/-! ## The stages of a request -/

theorem requests_withStage (s : Assistant) (r r' : Nat) (stage : Option RequestStage) :
    (s.withStage r stage).requests r' = if r' = r then stage else s.requests r' := rfl

/-- What the stage of a request can be after a step. -/
inductive StageAfter (registry : Registry) (s : Assistant) (now : Nat) (s' : Assistant) (r : Nat) : Prop
  | same (hstage : s'.requests r = s.requests r)
  | advanced (next : Option RequestStage) (hnext : Advance registry s now r next)
      (hstage : s'.requests r = next) (hactions : s'.actions = s.actions)
  | ended (hstage : s'.requests r = none)
  | claimed (request : Confirming) (checkedAt : Nat)
      (hbefore : s.requests r = some (.authorised request checkedAt)) (row : AiPendingAction)
      (hget : s.actions.get? request.row.id = some row) (hpending : row.status = .pending)
      (hactions : s'.actions = s.actions.put (row.withStatus .executing))
      (hstage : s'.requests r = some (.claimed request checkedAt))
      (hothers : ∀ r', r' ≠ r → s'.requests r' = s.requests r')

theorem stageAfter (h : StepEffect registry s now s') (r : Nat) : StageAfter registry s now s' r := by
  have hcut : ∀ {r' : Nat} {stage : Option RequestStage}, r ≠ r' →
      s'.requests = (s.withStage r' stage).requests → StageAfter registry s now s' r := by
    intro r' stage hne hrequests
    apply StageAfter.same
    rw [hrequests, requests_withStage, if_neg hne]
  have hself : ∀ {stage : Option RequestStage}, s'.requests = (s.withStage r stage).requests →
      s'.requests r = stage := by
    intro stage hrequests
    rw [hrequests, requests_withStage, if_pos rfl]
  cases h with
  | kept _ hrequests => exact StageAfter.same (by rw [hrequests])
  | proposed _ _ _ _ hrequests => exact StageAfter.same (by rw [hrequests])
  | deleted _ _ hrequests => exact StageAfter.same (by rw [hrequests])
  | advanced r' next hnext hactions hrequests =>
    by_cases hr : r = r'
    · subst hr
      exact StageAfter.advanced next hnext (hself hrequests) hactions
    · exact hcut hr hrequests
  | expired r' _ _ _ _ _ _ hrequests =>
    by_cases hr : r = r'
    · subst hr
      exact StageAfter.ended (hself hrequests)
    · exact hcut hr hrequests
  | rejected r' _ _ _ _ hrequests =>
    by_cases hr : r = r'
    · subst hr
      exact StageAfter.ended (hself hrequests)
    · exact hcut hr hrequests
  | recorded r' _ _ _ _ _ _ _ _ _ hrequests =>
    by_cases hr : r = r'
    · subst hr
      exact StageAfter.ended (hself hrequests)
    · exact hcut hr hrequests
  | claimed r' request checkedAt hbefore row hget hpending hactions hrequests =>
    by_cases hr : r = r'
    · subst hr
      refine StageAfter.claimed request checkedAt hbefore row hget hpending hactions (hself hrequests) ?_
      intro other hother
      rw [hrequests, requests_withStage, if_neg hother]
    · exact hcut hr hrequests

theorem engaged_of_same (h : s'.requests r = s.requests r) (hengaged : Engaged k r s') : Engaged k r s := by
  unfold Engaged HoldsClaim at hengaged ⊢
  rw [h] at hengaged
  exact hengaged

theorem not_undecided_of_claim {row : AiPendingAction} (hget : s.actions.get? k = some row)
    (hactions : s'.actions = s.actions.put (row.withStatus .executing)) : ¬ Undecided k s' := by
  have hkey : row.id = k := Table.id_of_get? hget
  have hid : HasId.id (row.withStatus .executing) = k := hkey
  have hput : s'.actions.get? k = some (row.withStatus .executing) := by
    rw [hactions, ← hid]
    apply Table.get?_put_self (a := row)
    rw [hid]
    exact hget
  rintro (hnew | ⟨found, hfound, hpending⟩)
  · have hle := Table.le_seq_of_get? hput
    omega
  · rw [hput] at hfound
    cases hfound
    cases hpending

theorem executionAt_spec {request : Confirming} {checkedAt : Nat}
    (h : executionAt x = some (request, checkedAt)) :
    ∃ r outcome row, x.label.call = .execute r outcome ∧
      x.before.requests r = some (.claimed request checkedAt) ∧
      x.before.actions.get? request.row.id = some row := by
  unfold executionAt at h
  split at h
  next r outcome hcall =>
    split at h
    next request' checkedAt' hstage =>
      split at h
      next hexists =>
        cases h
        obtain ⟨row, hget⟩ := Option.isSome_iff_exists.mp hexists
        exact ⟨r, outcome, row, hcall, hstage, hget⟩
      next => cases h
    next => cases h
  next => cases h

/-- The rules of claiming, for one action. -/
theorem claims_of_steps (registry : Registry) (k : Nat) :
    Claims (AssistantSteps registry) (Undecided k) (Engaged k) (HoldsClaim k) (executes k) where
  stays_taken := fun hsteps hundecided => undecided_before (stepEffect_of_steps hsteps).1 hundecided
  holder_engaged := Or.inl
  claims := by
    intro s e s' r hsteps hengaged
    cases stageAfter (stepEffect_of_steps hsteps).1 r with
    | same hstage => exact Or.inl (engaged_of_same hstage hengaged)
    | ended hstage =>
      obtain ⟨_, _, hclaimed, -⟩ | ⟨_, _, hexecuted, -⟩ := hengaged
      · rw [hstage] at hclaimed
        cases hclaimed
      · rw [hstage] at hexecuted
        cases hexecuted
    | advanced next hnext hstage _ =>
      obtain ⟨_, _, hclaimed, -⟩ | ⟨_, _, hexecuted, hk⟩ := hengaged
      · rw [hstage] at hclaimed
        subst hclaimed
        cases hnext
      · rw [hstage] at hexecuted
        subst hexecuted
        cases hnext with
        | executed _ checkedAt _ hbefore => exact Or.inl (Or.inl ⟨_, checkedAt, hbefore, hk⟩)
    | claimed request checkedAt _ row hget hpending hactions hstage hothers =>
      have hk : request.row.id = k := by
        obtain ⟨_, _, hclaimed, hk⟩ | ⟨_, _, hexecuted, -⟩ := hengaged
        · rw [hstage] at hclaimed
          cases hclaimed
          exact hk
        · rw [hstage] at hexecuted
          cases hexecuted
      rw [hk] at hget
      refine Or.inr ⟨Or.inr ⟨row, hget, hpending⟩, not_undecided_of_claim hget hactions, ?_⟩
      intro r' hengaged'
      by_cases hr : r' = r
      · exact Or.inl hr
      · exact Or.inr (engaged_of_same (hothers r' hr) hengaged')
  holder_before := by
    intro s e s' r hsteps hholds
    obtain ⟨request, checkedAt, hclaimed, hk⟩ := hholds
    cases stageAfter (stepEffect_of_steps hsteps).1 r with
    | same hstage =>
      rw [hstage] at hclaimed
      exact Or.inl ⟨request, checkedAt, hclaimed, hk⟩
    | advanced next hnext hstage _ =>
      rw [hstage] at hclaimed
      subst hclaimed
      cases hnext
    | ended hstage =>
      rw [hstage] at hclaimed
      cases hclaimed
    | claimed request' _ _ row hget hpending _ hstage _ =>
      rw [hstage] at hclaimed
      cases hclaimed
      right
      rw [hk] at hget
      exact Or.inr ⟨row, hget, hpending⟩
  uses_up := by
    intro s e s' hsteps huses
    obtain ⟨⟨request, checkedAt⟩, hexecution, hk⟩ := exists_of_any huses
    obtain ⟨r, outcome, row, hcall, hstage, hget⟩ := executionAt_spec hexecution
    refine ⟨r, ⟨request, checkedAt, hstage, by simpa using hk⟩, ?_⟩
    rintro ⟨request', checkedAt', hclaimed, -⟩
    have hcall' : e.call = .execute r outcome := hcall
    have hexecuted : s'.requests r = some (.executed request outcome) := by
      rw [hsteps.2, hcall']
      dsimp only [AssistantCall.run]
      dsimp only at hstage hget
      rw [hstage]
      dsimp only
      rw [hget]
      exact if_pos rfl
    rw [hexecuted] at hclaimed
    cases hclaimed

theorem not_engaged_of_none (hnone : ∀ r, s.requests r = none) (r : Nat) : ¬ Engaged k r s := by
  rintro (⟨_, _, hclaimed, -⟩ | ⟨_, _, hexecuted, -⟩)
  · rw [hnone r] at hclaimed
    cases hclaimed
  · rw [hnone r] at hexecuted
    cases hexecuted

theorem exclusive_of_run (h : AssistantRun registry tr s) (k : Nat) :
    Exclusive (Undecided k) (Engaged k) s :=
  (claims_of_steps registry k).exclusive (fun _ hnone r => not_engaged_of_none hnone r) h

/-! ## What a request has read -/

/-- What the checks of the request have shown. -/
def RequestStage.Checked (registry : Registry) : RequestStage → Prop
  | found _ | executed _ _ | rejecting _ _ => True
  | decidable request checkedAt => checkedAt ≤ request.row.expiresAt
  | authorised request checkedAt | claimed request checkedAt =>
    checkedAt ≤ request.row.expiresAt ∧ getTool registry request.row.toolName ≠ none

/-- The row that the request has read is the user's, and is the proposal that is in the table. -/
structure Fits (registry : Registry) (s : Assistant) (stage : RequestStage) : Prop where
  owner : stage.row.userId = stage.user.id
  proposal : Table.Settled (fun row => row.toProposal = stage.row.toProposal) stage.row.id s.actions
  checked : stage.Checked registry

theorem fits_of_read {stage : RequestStage} (hget : s.actions.get? stage.row.id = some stage.row)
    (howner : stage.row.userId = stage.user.id) (hchecked : stage.Checked registry) :
    Fits registry s stage where
  owner := howner
  proposal := Table.settled_of_mem (Table.mem_of_get? hget) rfl
  checked := hchecked

theorem Fits.later {stage : RequestStage} (h : Fits registry s stage)
    (hlater : Table.Later ActionLater s.actions s'.actions) : Fits registry s' stage where
  owner := h.owner
  proposal := by
    apply h.proposal.later _ hlater
    intro a b hab ha
    exact hab.1.trans ha
  checked := h.checked

def AllFit (registry : Registry) (s : Assistant) : Prop :=
  ∀ r stage, s.requests r = some stage → Fits registry s stage

theorem AllFit.step (h : AllFit registry s) (heffect : StepEffect registry s now s') :
    AllFit registry s' := by
  intro r stage hstage
  have hlater := later_of_effect heffect
  cases stageAfter heffect r with
  | same hsame =>
    rw [hsame] at hstage
    exact (h r stage hstage).later hlater
  | ended hended =>
    rw [hended] at hstage
    cases hstage
  | claimed request checkedAt hbefore _ _ _ _ hclaimed _ =>
    rw [hclaimed] at hstage
    cases hstage
    have hfits := (h r _ hbefore).later hlater
    exact ⟨hfits.owner, hfits.proposal, hfits.checked⟩
  | advanced next hnext hadvanced hactions =>
    rw [hadvanced] at hstage
    subst hstage
    cases hnext with
    | found request hget howner =>
      rw [← hactions] at hget
      exact fits_of_read hget howner trivial
    | rejecting user row hget howner =>
      rw [← hactions] at hget
      exact fits_of_read hget howner trivial
    | decidable request hbefore htime =>
      have hfits := (h r _ hbefore).later hlater
      exact ⟨hfits.owner, hfits.proposal, htime⟩
    | authorised request checkedAt hbefore hknown =>
      have hfits := (h r _ hbefore).later hlater
      exact ⟨hfits.owner, hfits.proposal, hfits.checked, hknown⟩
    | executed request checkedAt outcome hbefore =>
      have hfits := (h r _ hbefore).later hlater
      exact ⟨hfits.owner, hfits.proposal, trivial⟩

theorem allFit_of_run (h : AssistantRun registry tr s) : AllFit registry s := by
  refine h.invariant ?_ fun _ _ _ hfit hsteps => hfit.step (stepEffect_of_steps hsteps).1
  intro s hnone r stage hstage
  rw [hnone r] at hstage
  cases hstage

/-! ## The status of a claimed action -/

/-- A claimed action is being executed, or was marked as expired after its deadline. -/
def ClaimedStatus (clock : Nat) (row : AiPendingAction) : Prop :=
  row.status = .executing ∨ (row.status = .expired ∧ row.expiresAt < clock)

theorem ClaimedStatus.mono {clock clock' : Nat} (hle : clock ≤ clock') (row : AiPendingAction)
    (h : ClaimedStatus clock row) : ClaimedStatus clock' row := by
  obtain hexecuting | ⟨hexpired, hlate⟩ := h
  · exact Or.inl hexecuting
  · exact Or.inr ⟨hexpired, Nat.lt_of_lt_of_le hlate hle⟩

theorem ClaimedStatus.not_pending {clock : Nat} {row : AiPendingAction} (h : ClaimedStatus clock row) :
    row.status ≠ .pending := by
  intro hpending
  obtain hexecuting | ⟨hexpired, -⟩ := h
  · rw [hpending] at hexecuting
    cases hexecuting
  · rw [hpending] at hexpired
    cases hexpired

def AllClaimed (s : Assistant) : Prop :=
  ∀ r request checkedAt, s.requests r = some (.claimed request checkedAt) →
    Table.Settled (ClaimedStatus s.clock) request.row.id s.actions

/-- What the other requests do to an action that one has claimed. -/
theorem claimedStatus_kept {request : Confirming} {checkedAt : Nat} (hfit : AllFit registry s)
    (hexclusive : Exclusive (Undecided request.row.id) (Engaged request.row.id) s)
    (hclaimed : s.requests r = some (.claimed request checkedAt))
    (h : Table.Settled (ClaimedStatus now) request.row.id s.actions)
    (heffect : StepEffect registry s now s') :
    Table.Settled (ClaimedStatus now) request.row.id s'.actions := by
  have hnotpending : ∀ {row : AiPendingAction} {j : Nat}, s.actions.get? j = some row →
      row.id = request.row.id → row.status ≠ .pending := by
    intro row j hget hid
    exact (h.2 row (Table.mem_of_get? hget) hid).not_pending
  cases heffect with
  | kept hactions _ =>
    rw [hactions]
    exact h
  | advanced _ _ _ hactions _ =>
    rw [hactions]
    exact h
  | proposed mk hmk _ hactions _ =>
    rw [hactions]
    exact h.insert hmk
  | deleted keep hactions _ =>
    rw [hactions]
    exact h.filter
  | expired r' stage hstage hcause row hget hactions _ =>
    rw [hactions]
    apply h.put
    intro hid
    have hrow : row.toProposal = stage.row.toProposal :=
      (hfit r' stage hstage).proposal.2 row (Table.mem_of_get? hget) (Table.id_of_get? hget)
    have hsame : row.toProposal = request.row.toProposal :=
      (hfit r _ hclaimed).proposal.2 row (Table.mem_of_get? hget) hid
    obtain hlate | hgone := hcause
    · have hdeadline : row.expiresAt = stage.row.expiresAt := congrArg Proposal.expiresAt hrow
      rw [← hdeadline] at hlate
      exact Or.inr ⟨rfl, hlate⟩
    · have htool : stage.row.toolName = request.row.toolName := by
        rw [hrow] at hsame
        exact congrArg Proposal.toolName hsame
      rw [htool] at hgone
      exact absurd hgone (hfit r _ hclaimed).checked.2
  | claimed _ _ _ _ row hget hpending hactions _ =>
    rw [hactions]
    apply h.put
    intro hid
    exact absurd hpending (hnotpending hget hid)
  | rejected _ row hget hpending hactions _ =>
    rw [hactions]
    apply h.put
    intro hid
    exact absurd hpending (hnotpending hget hid)
  | recorded r' request' outcome hstage row hget _ _ _ hactions _ =>
    rw [hactions]
    apply h.put
    intro hid
    have hkey : request'.row.id = request.row.id := (Table.id_of_get? hget).symm.trans hid
    have hr : r = r' := hexclusive.2 r r' (Or.inl ⟨request, checkedAt, hclaimed, rfl⟩)
      (Or.inr ⟨request', outcome, hstage, hkey⟩)
    rw [hr, hstage] at hclaimed
    cases hclaimed

theorem allClaimed_of_run (h : AssistantRun registry tr s) : AllClaimed s := by
  induction h with
  | nil hnone =>
    intro r request checkedAt hclaimed
    rw [hnone r] at hclaimed
    cases hclaimed
  | @cons tr s e s' hrun hsteps ih =>
    intro r request checkedAt hclaimed
    obtain ⟨heffect, hclock⟩ := stepEffect_of_steps hsteps
    rw [hclock]
    have hexclusive := exclusive_of_run hrun request.row.id
    cases stageAfter heffect r with
    | same hsame =>
      rw [hsame] at hclaimed
      exact claimedStatus_kept (allFit_of_run hrun) hexclusive hclaimed
        ((ih r request checkedAt hclaimed).mono (ClaimedStatus.mono hsteps.1)) heffect
    | ended hended =>
      rw [hended] at hclaimed
      cases hclaimed
    | advanced next hnext hadvanced _ =>
      rw [hadvanced] at hclaimed
      subst hclaimed
      cases hnext
    | claimed request' _ _ row hget _ hactions hstage _ =>
      rw [hstage] at hclaimed
      cases hclaimed
      have hkey : row.id = request.row.id := Table.id_of_get? hget
      have hid : HasId.id (row.withStatus .executing) = request.row.id := hkey
      have hmem : row.withStatus .executing ∈ s'.actions := by
        rw [hactions]
        exact Table.mem_put_self (Table.mem_of_get? hget) rfl
      rw [← hid]
      exact Table.settled_of_mem hmem (Or.inl rfl)

/-! ## Before an execution -/

theorem clock_le_of_assistant {q : Assistant} (h : Run (· = q) (AssistantSteps registry) tr s) :
    q.clock ≤ s.clock := by
  refine h.relates (R := fun s s' => s.clock ≤ s'.clock) (fun s => Nat.le_refl s.clock)
    (fun _ _ _ hab hbc => Nat.le_trans hab hbc) ?_
  intro s e s' hsteps
  rw [(stepEffect_of_steps hsteps).2]
  exact hsteps.1

theorem later_of_assistant {q : Assistant} (h : Run (· = q) (AssistantSteps registry) tr s) :
    Table.Later ActionLater q.actions s.actions := by
  refine h.relates (R := fun s s' => Table.Later ActionLater s.actions s'.actions)
    (fun s => Table.Later.refl ActionLater.refl s.actions) ?_ ?_
  · intro a b c hab hbc
    exact Table.Later.trans ActionLater.trans hab hbc
  · intro s e s' hsteps
    exact later_of_effect (stepEffect_of_steps hsteps).1

/-- The rows that the action had in the states up to its execution. -/
theorem row_before_execution {request : Confirming} {checkedAt : Nat} {row : AiPendingAction}
    (hold : AssistantRun registry old x.before) (hsteps : AssistantSteps registry x.before x.label x.after)
    (hexecution : executionAt x = some (request, checkedAt)) (hy : y ∈ x :: old)
    (hget : y.before.actions.get? request.row.id = some row) :
    row.toProposal = request.row.toProposal ∧
      (row.status = .pending ∨ ClaimedStatus x.label.env.now row) := by
  obtain ⟨r, outcome, last, -, hstage, hlast⟩ := executionAt_spec hexecution
  obtain ⟨new, earlier, hsplit, hybefore, hfrom⟩ : ∃ new earlier, x :: old = new ++ y :: earlier ∧
      AssistantRun registry earlier y.before ∧
      ∃ tr, Run (· = y.before) (AssistantSteps registry) tr x.before := by
    obtain rfl | hy := List.mem_cons.mp hy
    · exact ⟨[], old, rfl, hold, [], Run.nil rfl⟩
    · obtain ⟨later, earlier, rfl⟩ := List.append_of_mem hy
      exact ⟨x :: later, earlier, rfl, hold.cut.1, later ++ [y], hold.from_before⟩
  obtain ⟨between, hbetween⟩ := hfrom
  have hid : row.id = request.row.id := Table.id_of_get? hget
  constructor
  · have hsettled : Table.Settled (fun a => a.toProposal = row.toProposal) row.id y.before.actions :=
      Table.settled_of_mem (Table.mem_of_get? hget) rfl
    have hthen := hsettled.later (fun a b hab ha => hab.1.trans ha) (later_of_assistant hbetween)
    have hrow : last.toProposal = row.toProposal :=
      hthen.2 last (Table.mem_of_get? hlast) ((Table.id_of_get? hlast).trans hid.symm)
    have hfit := (allFit_of_run hold r _ hstage).proposal.2 last (Table.mem_of_get? hlast)
      (Table.id_of_get? hlast)
    exact hrow.symm.trans hfit
  · have huses : executes request.row.id x = true := by
      unfold executes
      rw [hexecution]
      simp
    have hrun : AssistantRun registry ([] ++ x :: old) x.after := Run.cons hold hsteps
    have hnotspent := (claims_of_steps registry request.row.id).not_spent_before hrun huses hy
    by_cases hpending : row.status = .pending
    · exact Or.inl hpending
    · right
      have hdecided : ¬ Undecided request.row.id y.before := by
        rintro (hnew | ⟨found, hfound, hopen⟩)
        · have hle := Table.le_seq_of_get? hget
          omega
        · rw [hget] at hfound
          cases hfound
          exact hpending hopen
      by_contra hstatus
      apply hnotspent
      refine ⟨hdecided, ?_⟩
      rintro r' ⟨other, checked, hclaimed, hkey⟩
      have hsettled := allClaimed_of_run hybefore r' other checked hclaimed
      have hrow := hsettled.2 row (Table.mem_of_get? hget) (hid.trans hkey.symm)
      have hclock := clock_le_of_assistant hbetween
      exact hstatus (hrow.mono (Nat.le_trans hclock hsteps.1))

end

/-- In every run, and for every action: its tool runs at most once. Where it runs, the action was rejected in
no state up to then, and every row that it had in these states is the proposal to the user of the request. It
runs at or before its deadline, with no state up to then in which it was expired, exactly when the deadline
does not pass between the expiry check of the request and the run of the tool. -/
theorem action_executes_once (registry : Registry) {tr : List (Taken Assistant AssistantStep)} {s : Assistant}
    (h : AssistantRun registry tr s) (k : Nat) :
    tr.countP (executes k) ≤ 1 ∧
      ∀ new x old, tr = new ++ x :: old →
        ∀ request checkedAt, executionAt x = some (request, checkedAt) → request.row.id = k →
          (∀ y ∈ x :: old, ∀ row, y.before.actions.get? k = some row →
            row.status ≠ .rejected ∧ row.userId = request.user.id) ∧
          ((x.label.env.now ≤ request.row.expiresAt ∧
              ∀ y ∈ x :: old, ∀ row, y.before.actions.get? k = some row → row.status ≠ .expired) ↔
            ¬ (checkedAt ≤ request.row.expiresAt ∧ request.row.expiresAt < x.label.env.now)) := by
  constructor
  · exact (claims_of_steps registry k).used_once (fun _ hnone r => not_engaged_of_none hnone r) h
  rintro new x old rfl request checkedAt hexecution rfl
  obtain ⟨hold, hsteps⟩ := h.cut
  obtain ⟨r, _, _, -, hstage, -⟩ := executionAt_spec hexecution
  have hfits := allFit_of_run hold r _ hstage
  constructor
  · intro y hy row hget
    obtain ⟨hproposal, hstatus⟩ := row_before_execution hold hsteps hexecution hy hget
    constructor
    · intro hrejected
      obtain hpending | hexecuting | ⟨hexpired, -⟩ := hstatus
      · rw [hrejected] at hpending
        cases hpending
      · rw [hrejected] at hexecuting
        cases hexecuting
      · rw [hrejected] at hexpired
        cases hexpired
    · have huser : row.userId = request.row.userId := congrArg Proposal.userId hproposal
      rw [huser]
      exact hfits.owner
  · constructor
    · rintro ⟨htime, -⟩ ⟨-, hlate⟩
      omega
    · intro hdeadline
      have htime : x.label.env.now ≤ request.row.expiresAt := by
        have hchecked := hfits.checked.1
        omega
      refine ⟨htime, ?_⟩
      intro y hy row hget hexpired
      obtain ⟨hproposal, hstatus⟩ := row_before_execution hold hsteps hexecution hy hget
      have hsame : row.expiresAt = request.row.expiresAt := congrArg Proposal.expiresAt hproposal
      obtain hpending | hexecuting | ⟨-, hlate⟩ := hstatus
      · rw [hexpired] at hpending
        cases hpending
      · rw [hexpired] at hexecuting
        cases hexecuting
      · omega

/-! ## The last second of a proposal -/

/-- The tool that creates a person. -/
def createPersonnelTool : ToolSpec where
  name := "create_personnel"
  risky := true
  capabilities := [.managePersonnel]
  roles := [.hr]

def oneTool : Registry := fun name => if name = "create_personnel" then some createPersonnelTool else none

def hrUser : CurrentUser := { id := 4, username := "hr", role := .hr, personnelId := none }

/-- Everything is switched on for the account 4. -/
def assistantDay (now : Nat) : AssistantEnv where
  now := now
  config := ⟨true, true⟩
  access := fun _ => some ⟨true, true⟩
  hasKey := fun _ => true
  conversationOwner := fun _ => some 4
  capabilities := fun _ => [.managePersonnel]

def quietAssistant : Assistant := ⟨Table.empty, fun _ => none, 0⟩

def stepAt (now : Nat) (call : AssistantCall) : AssistantStep := ⟨assistantDay now, call⟩

/-- The state after a step. -/
def stepped (registry : Registry) (s : Assistant) (e : AssistantStep) : Assistant :=
  { e.call.run registry s e.env with clock := e.env.now }

theorem assistantRun_replay {registry : Registry} {steps : List AssistantStep}
    (horder : ((replay (stepped registry) quietAssistant steps).all fun x =>
      x.before.clock ≤ x.label.env.now) = true) :
    AssistantRun registry (replay (stepped registry) quietAssistant steps)
      (endState (stepped registry) quietAssistant steps) := by
  apply run_replay (fun _ => rfl)
  intro x hx
  have hclock := List.all_eq_true.mp horder x hx
  exact ⟨by simpa using hclock, after_replay hx⟩

/-- An action is proposed to the account 4, which confirms it a minute later. The newest first. -/
def confirmedInTime : List AssistantStep :=
  [stepAt 60 (.execute 1 (.done "")), stepAt 60 (.claim 1), stepAt 60 (.authorise 1),
    stepAt 60 (.ensureDecidable 1), stepAt 60 (.confirm 1 hrUser 1),
    stepAt 0 (.propose hrUser true 1 createPersonnelTool "{}")]

theorem executionAt_of_keys {x : Taken Assistant AssistantStep} {id userId checkedAt expiresAt : Nat}
    (h : (executionAt x).map (fun execution =>
      (execution.1.row.id, execution.1.user.id, execution.2, execution.1.row.expiresAt)) =
        some (id, userId, checkedAt, expiresAt)) :
    ∃ request, executionAt x = some (request, checkedAt) ∧ request.row.id = id ∧
      request.user.id = userId ∧ request.row.expiresAt = expiresAt := by
  obtain ⟨⟨request, time⟩, hexecution, hkeys⟩ := Option.map_eq_some_iff.mp h
  cases hkeys
  exact ⟨request, hexecution, rfl, rfl, rfl⟩

theorem confirmedInTime_executes_once :
    ∃ tr s, AssistantRun oneTool tr s ∧ tr.countP (executes 1) ≤ 1 ∧
      ∃ x ∈ tr, executes 1 x = true ∧ x.label.env.now = 60 ∧
        ∃ row, x.before.actions.get? 1 = some row ∧ row.status ≠ .rejected ∧ row.userId = 4 ∧
          row.status ≠ .expired := by
  have hrun : AssistantRun oneTool (replay (stepped oneTool) quietAssistant confirmedInTime)
      (endState (stepped oneTool) quietAssistant confirmedInTime) :=
    assistantRun_replay (by decide)
  obtain ⟨honce, hexecutions⟩ := action_executes_once oneTool hrun 1
  obtain ⟨request, hexecution, hid, huser, hexpires⟩ : ∃ request,
      executionAt ⟨endState (stepped oneTool) quietAssistant confirmedInTime.tail,
        stepAt 60 (.execute 1 (.done "")), endState (stepped oneTool) quietAssistant confirmedInTime⟩ =
          some (request, 60) ∧ request.row.id = 1 ∧ request.user.id = 4 ∧
        request.row.expiresAt = hours pendingTtlHours :=
    executionAt_of_keys (by decide)
  obtain ⟨row, hget⟩ : ∃ row, (endState (stepped oneTool) quietAssistant
      confirmedInTime.tail).actions.get? 1 = some row :=
    Option.isSome_iff_exists.mp (by decide)
  obtain ⟨hrows, hdeadline⟩ := hexecutions [] _ _ rfl request 60 hexecution hid
  obtain ⟨hrejected, howner⟩ := hrows _ List.mem_cons_self row hget
  have hintime : ¬ (60 ≤ request.row.expiresAt ∧ request.row.expiresAt < 60) := by omega
  have hexpired := (hdeadline.mpr hintime).2 _ List.mem_cons_self row hget
  refine ⟨_, _, hrun, honce, _, List.mem_cons_self, by decide, rfl, row, hget, hrejected, ?_,
    hexpired⟩
  rw [howner, huser]

/-- One request claims the action in its last second. Another, which read it before, marks it as expired a
second later; then the tool runs. The newest first. -/
def claimedTooLate : List AssistantStep :=
  [stepAt 86401 (.execute 1 (.done "")), stepAt 86401 (.ensureDecidable 2), stepAt 86400 (.claim 1),
    stepAt 86400 (.authorise 1), stepAt 86400 (.ensureDecidable 1), stepAt 86400 (.confirm 2 hrUser 1),
    stepAt 86400 (.confirm 1 hrUser 1), stepAt 0 (.propose hrUser true 1 createPersonnelTool "{}")]

/-- The tool runs after the deadline, on an action that is marked as expired. -/
theorem expired_action_executes :
    ∃ tr s, AssistantRun oneTool tr s ∧
      ∃ x ∈ tr, executes 1 x = true ∧
        (x.before.actions.get? 1).any (fun row =>
          row.status = .expired ∧ row.expiresAt < x.label.env.now) = true :=
  have hrun : AssistantRun oneTool (replay (stepped oneTool) quietAssistant claimedTooLate)
      (endState (stepped oneTool) quietAssistant claimedTooLate) :=
    assistantRun_replay (by decide)
  ⟨_, _, hrun, _, List.mem_cons_self, by decide, by decide⟩

end NexaHR
