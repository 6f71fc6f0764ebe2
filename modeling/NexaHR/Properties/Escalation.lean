import NexaHR.System.PlatformEffects
import NexaHR.System.PlatformStep

/-! # Nobody raises himself, and employees administer nothing

The endpoint that sets capabilities refuses to add one to the caller's own account, and gives none to an
employee. A change of role is a second way to both: it gives the defaults of HR, and it takes nothing away.

* `selfPromotes`, `demotesHolder`: the two changes of role.
* `Hygienic`: no employee holds a capability.
* `no_escalation`: without the two, nobody who may not grant gains a capability by his own request, and
  every state is hygienic.
-/

namespace NexaHR

open Foundations

set_option autoImplicit false

/-- The account on whose behalf a request is made. -/
def requesterOf (x : Taken Platform PlatformRequest) : Option Nat :=
  match x.label.call with
  | .login username _ => (userNamed x.before username).map User.id
  | .refresh token | .logout token | .changePassword token _ _ | .revokeMySession token _
  | .signedIn token _ => token.map Token.sub
  | .purgeStale | .purgeDeadSessions => none

/-- An account makes itself one of HR without holding all the defaults of HR. -/
def selfPromotes (p : Platform) : PlatformCall → Bool
  | .signedIn token (.updateUser userId payload _) =>
    token.map Token.sub = some userId && p.entersHr userId payload &&
      !defaultHrCapabilities.all (hasCapability p userId ·)
  | _ => false

/-- An account that holds a capability becomes an employee's. -/
def demotesHolder (p : Platform) : PlatformCall → Bool
  | .signedIn _ (.updateUser userId payload _) =>
    payload.role = some .employee && capabilitiesOf p userId ≠ []
  | _ => false

/-- The step changes no role in one of the two ways, or was refused. -/
def KeepsRank (S : Deployment) (x : Taken Platform PlatformRequest) : Prop :=
  (answerOf S x).isOk = true →
    selfPromotes x.before x.label.call = false ∧ demotesHolder x.before x.label.call = false

instance (S : Deployment) (x : Taken Platform PlatformRequest) : Decidable (KeepsRank S x) :=
  inferInstanceAs (Decidable (_ → _))

/-- No employee holds a capability. A row is about an account that was created. -/
structure Hygienic (p : Platform) : Prop where
  rows : ∀ row ∈ p.userCapabilities, row.userId ≤ p.db.users.seq
  employees : ∀ u ∈ p.db.users, u.role = .employee →
    ∀ capability, hasCapability p u.id capability = false

section

variable {S : Deployment} {p p' : Platform} {req : PlatformRequest} {k : Nat} {caller : CurrentUser}
  {call : AccountCall}

theorem requester_of_caller (h : IsCaller p req call caller) :
    ∃ token, req.call = .signedIn (some token) call ∧ token.sub = caller.id ∧
      (p.db.users.get? caller.id).isSome = true := by
  obtain ⟨bearer, hcall, hsigned⟩ := h
  obtain ⟨token, u, rfl, -, hget, -, -, rfl⟩ := signedInUser_ok hsigned
  have hid : u.id = token.sub := Table.id_of_get? hget
  refine ⟨token, hcall, hid.symm, ?_⟩
  show (p.db.users.get? u.id).isSome = true
  rw [hid, hget]
  rfl

theorem requesterOf_caller (h : IsCaller p req call caller)
    (hk : requesterOf ⟨p, req, p'⟩ = some k) : k = caller.id := by
  obtain ⟨token, hcall, hsub, -⟩ := requester_of_caller h
  unfold requesterOf at hk
  rw [hcall] at hk
  rw [← hsub]
  exact (Option.some.inj hk).symm

/-- Only who may grant reaches the endpoint that sets capabilities. -/
theorem capabilityTarget_caller {env : Env} {userId : Nat} {desired : List Capability} {target : User}
    (h : capabilityTarget p env caller userId desired = .ok target) :
    hasCapability p caller.id .manageCapabilities = true ∧ p.db.users.get? userId = some target ∧
      target.role ≠ .employee := by
  unfold capabilityTarget at h
  simp only [bind_eq_ok, pure_eq_ok, require_eq_ok, ensure_eq_ok] at h
  obtain ⟨_, hcapable, target', hget, -, hrole, -, -, -, -, rfl⟩ := h
  unfold requireCapability at hcapable
  rw [ensure_eq_ok] at hcapable
  exact ⟨mem_capabilitiesOf.mp hcapable, hget, hrole⟩

/-! ## No gain by one's own request -/

theorem no_gain_of_same {answer : Answer} (hcaps : answer.2.userCapabilities = p.userCapabilities)
    {capability : Capability} (h : hasCapability answer.2 k capability = true) :
    hasCapability p k capability = true := by
  rw [← hasCapability_congr hcaps]
  exact h

theorem no_gain_step (hsteps : PlatformSteps S p req p') (hrank : KeepsRank S ⟨p, req, p'⟩)
    (hk : requesterOf ⟨p, req, p'⟩ = some k)
    (hgrants : hasCapability p k .manageCapabilities = false) {capability : Capability}
    (h : hasCapability p' k capability = true) : hasCapability p k capability = true := by
  have heffect := accountEffect_of_serve S p req
  rw [hsteps.2] at h
  unfold KeepsRank answerOf at hrank
  dsimp only at hrank
  generalize serve S p req = answer at heffect hrank h
  cases heffect with
  | kept _ hcaps _ => exact no_gain_of_same hcaps h
  | passwordChanged _ _ hcaps _ => exact no_gain_of_same hcaps h
  | grown _ hcaps _ => exact no_gain_of_same hcaps h
  | createdHr _ caller payload password hcaller _ _ _ _ hcaps _ =>
    obtain ⟨token, -, -, hsome⟩ := requester_of_caller hcaller
    have hid := requesterOf_caller hcaller hk
    obtain ⟨u, hget⟩ := Option.isSome_iff_exists.mp hsome
    have hle := Table.le_seq_of_get? hget
    rw [hasCapability_congr hcaps, hasCapability_applyDefault, if_neg (by omega)] at h
    exact h
  | updated hok caller userId payload password hcaller u hget _ _ hcaps _ =>
    obtain ⟨token, hcall, hsub, -⟩ := requester_of_caller hcaller
    have hid := requesterOf_caller hcaller hk
    have hself := (hrank hok).1
    rw [hcall] at hself
    rw [hasCapability_congr (q := if p.entersHr userId payload then
      applyDefaultHrCapabilities p userId else p) (by rw [hcaps]; split <;> rfl)] at h
    by_cases henters : p.entersHr userId payload = true
    · rw [if_pos henters, hasCapability_applyDefault] at h
      by_cases hown : k = userId
      · rw [if_pos hown] at h
        have hall : defaultHrCapabilities.all (hasCapability p userId ·) = true := by
          have hsame : token.sub = userId := by rw [hsub, ← hid, hown]
          simpa [selfPromotes, hsame, henters] using hself
        rw [hown]
        exact List.all_eq_true.mp hall capability h
      · rw [if_neg hown] at h
        exact h
    · rw [if_neg henters] at h
      exact h
  | deleted _ caller userId _ _ _ hcaps _ =>
    rw [hasCapability_iff, hcaps] at h
    obtain ⟨row, hrow, huser, hc⟩ := h
    exact hasCapability_iff.mpr ⟨row, (Table.mem_filter.mp hrow).1, huser, hc⟩
  | departed _ _ _ _ _ _ _ _ hcaps _ => exact no_gain_of_same hcaps h
  | granted _ caller userId desired hcaller target htarget _ _ _ =>
    have hid := requesterOf_caller hcaller hk
    have hmay := (capabilityTarget_caller htarget).1
    rw [← hid, hgrants] at hmay
    cases hmay

/-! ## No employee administers -/

theorem not_hasCapability_of_seq_lt (h : Hygienic p) (hk : p.db.users.seq < k) (capability : Capability) :
    hasCapability p k capability = false := by
  by_contra hne
  obtain ⟨row, hrow, huser, -⟩ := hasCapability_iff.mp (by simpa using hne)
  have hle := h.rows row hrow
  omega

/-- Accounts are added, and rows stay. -/
theorem hygienic_of_grows {answer : Answer} (h : Hygienic p)
    (hgrows : Table.Grows p.db.users answer.2.db.users)
    (hcaps : answer.2.userCapabilities = p.userCapabilities) : Hygienic answer.2 := by
  constructor
  · intro row hrow
    rw [hcaps] at hrow
    exact Nat.le_trans (h.rows row hrow) hgrows.seq_le
  · intro u hu hrole capability
    rw [hasCapability_congr hcaps]
    obtain hold | hnew := hgrows.fresh u.id u (Table.get?_of_mem hu)
    · exact h.employees u (Table.mem_of_get? hold) hrole capability
    · exact not_hasCapability_of_seq_lt h hnew capability

/-- One account is written and keeps its role, and rows stay. -/
theorem hygienic_of_put {u v : User} {answer : Answer} (h : Hygienic p)
    (hid : v.id = u.id) (husers : answer.2.db.users = p.db.users.put v)
    (hcaps : answer.2.userCapabilities = p.userCapabilities)
    (hrole : v.role = .employee → ∀ capability, hasCapability p u.id capability = false) :
    Hygienic answer.2 := by
  constructor
  · intro row hrow
    rw [hcaps] at hrow
    rw [husers]
    exact h.rows row hrow
  · intro w hw hemployee capability
    rw [hasCapability_congr hcaps]
    rw [husers] at hw
    obtain ⟨hold, -⟩ | rfl := Table.mem_put hw
    · exact h.employees w hold hemployee capability
    · rw [hid]
      exact hrole hemployee capability

/-- Granting to an account of the table adds rows of that account only. -/
theorem rows_of_granted {remove : UserCapability → Bool} {userId : Nat} {granter : Option Nat}
    {capabilities : List Capability} {row : UserCapability} (h : Hygienic p) (hle : userId ≤ p.db.users.seq)
    (hrow : row ∈ (grantAll (revokeWhere p remove) userId granter capabilities).userCapabilities) :
    row.userId ≤ p.db.users.seq := by
  obtain hold | ⟨huser, -⟩ := mem_grantAll hrow
  · exact h.rows row (Table.mem_filter.mp hold).1
  · rw [huser]
    exact hle

theorem hygienic_updated {userId : Nat} {payload : UserUpdate} {u : User} {answer : Answer}
    (h : Hygienic p) (hget : p.db.users.get? userId = some u)
    (hdemotes : payload.role = some .employee → capabilitiesOf p userId = [])
    (husers : answer.2.db.users = p.db.users.put (u.updated payload))
    (hcaps : answer.2.userCapabilities =
      if p.entersHr userId payload then (applyDefaultHrCapabilities p userId).userCapabilities
      else p.userCapabilities) : Hygienic answer.2 := by
  have hmem := Table.mem_of_get? hget
  have hid : u.id = userId := Table.id_of_get? hget
  by_cases henters : p.entersHr userId payload = true
  · rw [if_pos henters] at hcaps
    have hhr : payload.role = some .hr := by
      unfold Platform.entersHr at henters
      rw [hget, Option.any_some, Bool.and_eq_true] at henters
      simpa using henters.2
    constructor
    · intro row hrow
      rw [hcaps] at hrow
      rw [husers]
      exact rows_of_granted h (Table.le_seq_of_get? hget) hrow
    · intro w hw hemployee capability
      rw [husers] at hw
      obtain ⟨hold, hne⟩ | rfl := Table.mem_put hw
      · have hne' : w.id ≠ userId := by
          rw [← hid]
          exact hne
        have hnot := h.employees w hold hemployee capability
        by_contra hheld
        rw [hasCapability_congr hcaps, Bool.not_eq_false, hasCapability_applyDefault, if_neg hne',
          hnot] at hheld
        cases hheld
      · unfold User.updated at hemployee
        rw [hhr] at hemployee
        cases hemployee
  · rw [if_neg henters] at hcaps
    have hid' : (u.updated payload).id = u.id := rfl
    refine hygienic_of_put h hid' husers hcaps ?_
    intro hemployee capability
    cases hrole : payload.role with
    | none =>
      unfold User.updated at hemployee
      rw [hrole] at hemployee
      exact h.employees u hmem hemployee capability
    | some role =>
      unfold User.updated at hemployee
      rw [hrole] at hemployee
      have hnone := hdemotes (by rw [hrole]; exact congrArg some hemployee)
      by_contra hheld
      have hin := mem_capabilitiesOf.mpr (by simpa using hheld : hasCapability p u.id capability = true)
      rw [hid, hnone] at hin
      cases hin

theorem hygienic_step (h : Hygienic p) (hrank : KeepsRank S ⟨p, req, p'⟩)
    (hsteps : PlatformSteps S p req p') : Hygienic p' := by
  have heffect := accountEffect_of_serve S p req
  rw [hsteps.2]
  unfold KeepsRank answerOf at hrank
  dsimp only at hrank
  generalize serve S p req = answer at heffect hrank
  cases heffect with
  | kept husers hcaps _ =>
    exact hygienic_of_grows h (husers ▸ Table.Grows.refl _) hcaps
  | passwordChanged _ husers hcaps _ =>
    exact hygienic_of_grows h (husers ▸ Table.Grows.refl _) hcaps
  | grown hgrows hcaps _ => exact hygienic_of_grows h hgrows hcaps
  | createdHr _ _ _ _ _ hgrows v hget hrole hcaps _ =>
    constructor
    · intro row hrow
      rw [hcaps] at hrow
      obtain hold | ⟨huser, -⟩ := mem_grantAll hrow
      · exact Nat.le_trans (h.rows row (Table.mem_filter.mp hold).1) hgrows.seq_le
      · rw [huser]
        exact Table.le_seq_of_get? hget
    · intro u hu hemployee capability
      have hne : u.id ≠ p.db.users.seq + 1 := by
        intro heq
        have huv : u = v := Table.eq_of_id_eq hu (Table.mem_of_get? hget)
          (heq.trans (Table.id_of_get? hget).symm)
        rw [huv, hrole] at hemployee
        cases hemployee
      have hnot : hasCapability p u.id capability = false := by
        obtain hold | hnew := hgrows.fresh u.id u (Table.get?_of_mem hu)
        · exact h.employees u (Table.mem_of_get? hold) hemployee capability
        · exact not_hasCapability_of_seq_lt h hnew capability
      by_contra hheld
      rw [hasCapability_congr hcaps, Bool.not_eq_false, hasCapability_applyDefault, if_neg hne,
        hnot] at hheld
      cases hheld
  | updated hok caller userId payload password hcaller u hget _ husers hcaps _ =>
    obtain ⟨token, hcall, -, -⟩ := requester_of_caller hcaller
    have hdemotes := (hrank hok).2
    rw [hcall] at hdemotes
    refine hygienic_updated h hget ?_ husers hcaps
    intro hemployee
    simpa [demotesHolder, hemployee] using hdemotes
  | deleted _ caller userId _ _ husers hcaps _ =>
    constructor
    · intro row hrow
      rw [hcaps] at hrow
      rw [husers]
      exact h.rows row (Table.mem_filter.mp hrow).1
    · intro u hu hemployee capability
      rw [husers] at hu
      have hnot := h.employees u (Table.mem_filter.mp hu).1 hemployee capability
      by_contra hheld
      obtain ⟨row, hrow, huser, hc⟩ := hasCapability_iff.mp (by simpa using hheld)
      rw [hcaps] at hrow
      have hbefore := hasCapability_iff.mpr ⟨row, (Table.mem_filter.mp hrow).1, huser, hc⟩
      rw [hnot] at hbefore
      cases hbefore
  | departed _ _ _ _ _ account hclosing husers hcaps _ =>
    have hmem : account ∈ p.db.users := by
      unfold Platform.closingAccount at hclosing
      split at hclosing
      · cases hclosing
      · split at hclosing
        · exact List.mem_of_find?_eq_some (Option.filter_eq_some_iff.mp hclosing).1
        · cases hclosing
    have hid : ({ account with isActive := false } : User).id = account.id := rfl
    refine hygienic_of_put h hid husers hcaps ?_
    intro hemployee capability
    exact h.employees account hmem hemployee capability
  | granted _ caller userId desired _ target htarget husers hcaps _ =>
    obtain ⟨-, hget, hrole⟩ := capabilityTarget_caller htarget
    constructor
    · intro row hrow
      rw [hcaps] at hrow
      rw [husers]
      exact rows_of_granted h (Table.le_seq_of_get? hget) hrow
    · intro u hu hemployee capability
      rw [husers] at hu
      have hne : u.id ≠ userId := by
        intro heq
        have htargeted : u = target := Table.eq_of_id_eq hu (Table.mem_of_get? hget)
          (heq.trans (Table.id_of_get? hget).symm)
        rw [htargeted] at hemployee
        exact hrole hemployee
      have hnot := h.employees u hu hemployee capability
      by_contra hheld
      rw [hasCapability_congr hcaps, Bool.not_eq_false, hasCapability_grantAll,
        hasCapability_revokeWhere] at hheld
      obtain ⟨row, hrow, -, huser, hc⟩ | ⟨heq, -⟩ := hheld
      · have hbefore := hasCapability_iff.mpr ⟨row, hrow, huser, hc⟩
        rw [hnot] at hbefore
        cases hbefore
      · exact hne heq

end

/-- In every run without the two changes of role, a request by somebody who may not grant gives him nothing
that he did not hold, and no employee holds a capability. -/
theorem no_escalation (S : Deployment) {tr : List (Taken Platform PlatformRequest)} {p : Platform}
    (h : PlatformRun S Hygienic tr p) (hrank : ∀ x ∈ tr, KeepsRank S x) :
    (∀ x ∈ tr, ∀ k, requesterOf x = some k → hasCapability x.before k .manageCapabilities = false →
      ∀ capability, hasCapability x.after k capability = true →
        hasCapability x.before k capability = true) ∧
      ∀ u ∈ p.db.users, u.role = .employee → ∀ capability, hasCapability p u.id capability = false := by
  constructor
  · intro x hx k hk hgrants capability
    exact no_gain_step (h.step_of_mem hx).2 (hrank x hx) hk hgrants
  · have hclean : Hygienic p :=
      h.invariant_of_steps (C := KeepsRank S) (fun _ h0 => h0)
        (fun _ _ _ hp hsteps hx => hygienic_step hp hx hsteps) hrank
    exact hclean.employees

/-- The account 4 makes the deputy of account 6 an administrator of accounts, and he makes himself one of HR;
the newest first. -/
def deputyPromotesHimself : List PlatformRequest :=
  [requestAt 4 (.signedIn (bearerOf 6 .deputy 3) (.updateUser 6 { role := some .hr } none)),
    requestAt 3 (.login "deputy2" "secret"),
    requestAt 2 (.signedIn (bearerOf 4 .hr 1) (.setCapabilities 6 [.manageUsers])),
    requestAt 1 (.login "hr" "secret")]

/-- The account 4 gives the deputy of account 6 a capability and then makes him an employee. -/
def deputyBecomesEmployee : List PlatformRequest :=
  [requestAt 3 (.signedIn (bearerOf 4 .hr 1)
      (.updateUser 6 { role := some .employee, personnelId := some (some 1) } none)),
    requestAt 2 (.signedIn (bearerOf 4 .hr 1) (.setCapabilities 6 [.viewAuditLog])),
    requestAt 1 (.login "hr" "secret")]

/-- The account 4 gives the deputy of account 6 a capability, and he tries to give it to himself too. -/
def deputyIsGranted : List PlatformRequest :=
  [requestAt 4 (.signedIn (bearerOf 6 .deputy 3) (.setCapabilities 6 [.manageUsers, .managePersonnel])),
    requestAt 3 (.login "deputy2" "secret"),
    requestAt 2 (.signedIn (bearerOf 4 .hr 1) (.setCapabilities 6 [.manageUsers])),
    requestAt 1 (.login "hr" "secret")]

theorem officePlatform_hygienic : Hygienic officePlatform where
  rows := by
    have h : officePlatform.userCapabilities.rows.all
        (fun row => row.userId ≤ officePlatform.db.users.seq) = true := by decide
    intro row hrow
    simpa using List.all_eq_true.mp h row hrow
  employees := by
    have h : officePlatform.db.users.rows.all (fun u => u.role ≠ .employee) = true := by decide
    intro u hu hrole
    exact absurd hrole (by simpa using List.all_eq_true.mp h u hu)

theorem office_run (reqs : List PlatformRequest)
    (horder : inOrder ordinarySettings officePlatform reqs = true) :
    PlatformRun ordinarySettings Hygienic (replay (served ordinarySettings) officePlatform reqs)
      (endState (served ordinarySettings) officePlatform reqs) :=
  platformRun_replay officePlatform_hygienic horder

/-- One gains capabilities that he did not hold by his own request, and an employee holds one. -/
theorem roles_escalate :
    (∃ tr p, PlatformRun ordinarySettings Hygienic tr p ∧ ∃ x ∈ tr, requesterOf x = some 6 ∧
      hasCapability x.before 6 .manageCapabilities = false ∧
      hasCapability x.before 6 .managePersonnel = false ∧
      hasCapability x.after 6 .managePersonnel = true) ∧
    ∃ tr p, PlatformRun ordinarySettings Hygienic tr p ∧ ∃ u ∈ p.db.users.rows, u.role = .employee ∧
      hasCapability p u.id .viewAuditLog = true :=
  ⟨⟨_, _, office_run deputyPromotesHimself (by decide), _, List.mem_cons_self,
      by decide, by decide, by decide, by decide⟩,
    ⟨_, _, office_run deputyBecomesEmployee (by decide), by decide⟩⟩

theorem deputyIsGranted_gains_nothing :
    (∃ x ∈ replay (served ordinarySettings) officePlatform deputyIsGranted, requesterOf x = some 6 ∧
      hasCapability x.before 6 .manageUsers = true ∧
      (hasCapability x.after 6 .managePersonnel = true →
        hasCapability x.before 6 .managePersonnel = true)) ∧
    ∀ u ∈ (endState (served ordinarySettings) officePlatform deputyIsGranted).db.users,
      u.role = .employee → ∀ capability, hasCapability
        (endState (served ordinarySettings) officePlatform deputyIsGranted) u.id capability = false :=
  have h := no_escalation ordinarySettings (office_run deputyIsGranted (by decide))
    (by decide)
  ⟨⟨_, List.mem_cons_self, by decide, by decide,
      h.1 _ List.mem_cons_self 6 (by decide) (by decide) .managePersonnel⟩, h.2⟩

end NexaHR
