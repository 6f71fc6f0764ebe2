import NexaHR.System.PlatformEffects
import NexaHR.System.PlatformStep

/-! # Somebody may always grant

An active account that holds `manage_capabilities` can give it to others; without one, nobody can. The
endpoint that sets capabilities asks for another holder before it takes the last one's. The endpoints that
switch an account off, move it to HR or delete it do not ask.

* `Administered`: there is such an account.
* `SparesAdministrator`: what those endpoints would have to ask.
* `administered_of_run`: with it, there is such an account in every run.
-/

namespace NexaHR

open Foundations

set_option autoImplicit false

/-- An active account holds `manage_capabilities`. -/
def Administered (p : Platform) : Prop :=
  ∃ u ∈ p.db.users, u.isActive = true ∧ hasCapability p u.id .manageCapabilities = true

/-- An active account other than the given one holds it, by a row that somebody else granted. -/
def heldWithout (p : Platform) (userId : Nat) : Bool :=
  p.db.users.rows.any fun u => u.isActive && u.id ≠ userId &&
    p.userCapabilities.rows.any fun row =>
      row.userId = u.id && row.capability = .manageCapabilities && row.grantedByUserId ≠ some userId

/-- Where the request takes an account out of service, into HR or out of the table, another active account
holds `manage_capabilities`. -/
def sparesAdministrator (p : Platform) : PlatformCall → Bool
  | .signedIn _ (.updateUser userId payload _) =>
    !(payload.isActive = some false || p.entersHr userId payload) ||
      heldByAnother p userId .manageCapabilities
  | .signedIn _ (.deleteUser userId) => heldWithout p userId
  | .signedIn _ (.updatePersonnel personnelId payload) =>
    (p.closingAccount personnelId payload).all fun account =>
      heldByAnother p account.id .manageCapabilities
  | _ => true

/-- The step spares the last administrator, or was refused. -/
def SparesAdministrator (S : Deployment) (x : Taken Platform PlatformRequest) : Prop :=
  (answerOf S x).isOk = true → sparesAdministrator x.before x.label.call = true

instance (S : Deployment) (x : Taken Platform PlatformRequest) : Decidable (SparesAdministrator S x) :=
  inferInstanceAs (Decidable (_ → _))

instance (p : Platform) : Decidable (Administered p) :=
  inferInstanceAs (Decidable (∃ u ∈ p.db.users.rows, _))

section

variable {S : Deployment} {p p' : Platform} {req : PlatformRequest} {k : Nat}

theorem heldByAnother_iff : heldByAnother p k .manageCapabilities = true ↔
    ∃ u ∈ p.db.users, u.isActive = true ∧ u.id ≠ k ∧
      hasCapability p u.id .manageCapabilities = true := by
  simp [heldByAnother, Table.mem_def, and_assoc]

theorem heldWithout_iff : heldWithout p k = true ↔
    ∃ u ∈ p.db.users, u.isActive = true ∧ u.id ≠ k ∧ ∃ row ∈ p.userCapabilities,
      row.userId = u.id ∧ row.capability = .manageCapabilities ∧ row.grantedByUserId ≠ some k := by
  simp [heldWithout, Table.mem_def, and_assoc]

theorem mem_put_of_ne {users : Table User} {u v : User} (hu : u ∈ users) (hne : u.id ≠ v.id) :
    u ∈ users.put v :=
  Table.mem_map.mpr ⟨u, hu, if_neg hne⟩

theorem mem_put_self {users : Table User} {u v : User} (hu : u ∈ users) (hid : v.id = u.id) :
    v ∈ users.put v :=
  Table.mem_map.mpr ⟨u, hu, if_pos hid.symm⟩

theorem mem_of_grows {users users' : Table User} (h : Table.Grows users users') {u : User}
    (hu : u ∈ users) : u ∈ users' :=
  Table.mem_of_get? (h.keeps u.id u (Table.get?_of_mem hu))

/-- What `set_capabilities` checked about the last holder. -/
theorem capabilityTarget_spares {env : Env} {caller : CurrentUser} {desired : List Capability}
    {target : User} (h : capabilityTarget p env caller k desired = .ok target)
    (hheld : hasCapability p k .manageCapabilities = true) (hdrop : .manageCapabilities ∉ desired) :
    heldByAnother p k .manageCapabilities = true := by
  unfold capabilityTarget at h
  simp only [bind_eq_ok, pure_eq_ok, require_eq_ok, ensure_eq_ok] at h
  obtain ⟨-, -, _, -, -, -, -, -, -, hlast, -⟩ := h
  exact hlast (mem_capabilitiesOf.mpr hheld) hdrop

/-- The endpoint that sets capabilities keeps a holder. -/
theorem administered_granted {env : Env} {caller : CurrentUser} {desired : List Capability}
    {target : User} {answer : Answer} (hp : Administered p)
    (htarget : capabilityTarget p env caller k desired = .ok target)
    (husers : answer.2.db.users = p.db.users)
    (hcaps : answer.2.userCapabilities =
      (grantAll (revokeWhere p fun row => row.userId = k && !desired.contains row.capability) k
        (some caller.id) (desired.dedup.filter fun c => !(capabilitiesOf p k).contains c)).userCapabilities) :
    Administered answer.2 := by
  have hkept : ∀ j, hasCapability p j .manageCapabilities = true →
      (j = k → .manageCapabilities ∈ desired) → hasCapability answer.2 j .manageCapabilities = true := by
    intro j hheld hdesired
    rw [hasCapability_congr hcaps, hasCapability_grantAll, hasCapability_revokeWhere]
    left
    obtain ⟨row, hrow, hj, hc⟩ := hasCapability_iff.mp hheld
    refine ⟨row, hrow, ?_, hj, hc⟩
    by_cases hk : j = k
    · have hin := hdesired hk
      simp [hc, hin]
    · have hne : row.userId ≠ k := by
        rw [hj]
        exact hk
      simp [hne]
  obtain ⟨u, hu, hactive, hheld⟩ := hp
  by_cases hdrop : u.id = k ∧ .manageCapabilities ∉ desired
  · obtain ⟨rfl, hnot⟩ := hdrop
    obtain ⟨v, hv, hvactive, hne, hvheld⟩ :=
      heldByAnother_iff.mp (capabilityTarget_spares htarget hheld hnot)
    exact ⟨v, husers ▸ hv, hvactive, hkept v.id hvheld fun heq => absurd heq hne⟩
  · refine ⟨u, husers ▸ hu, hactive, hkept u.id hheld fun heq => ?_⟩
    by_contra hnot
    exact hdrop ⟨heq, hnot⟩

/-- An update that takes nobody's last administrator keeps one. -/
theorem administered_updated {payload : UserUpdate} {u : User} {answer : Answer} (hp : Administered p)
    (hget : p.db.users.get? k = some u)
    (hspares : payload.isActive = some false ∨ p.entersHr k payload = true →
      heldByAnother p k .manageCapabilities = true)
    (husers : answer.2.db.users = p.db.users.put (u.updated payload))
    (hcaps : answer.2.userCapabilities =
      if p.entersHr k payload then (applyDefaultHrCapabilities p k).userCapabilities
      else p.userCapabilities) : Administered answer.2 := by
  have hid : u.id = k := Table.id_of_get? hget
  have hother : ∀ v ∈ p.db.users, v.isActive = true → v.id ≠ k →
      hasCapability p v.id .manageCapabilities = true → Administered answer.2 := by
    intro v hv hactive hne hheld
    refine ⟨v, ?_, hactive, ?_⟩
    · rw [husers]
      apply mem_put_of_ne hv
      show v.id ≠ u.id
      rw [hid]
      exact hne
    · by_cases henters : p.entersHr k payload = true
      · rw [if_pos henters] at hcaps
        rw [hasCapability_congr hcaps, hasCapability_applyDefault, if_neg hne]
        exact hheld
      · rw [if_neg henters] at hcaps
        rw [hasCapability_congr hcaps]
        exact hheld
  by_cases htakes : payload.isActive = some false ∨ p.entersHr k payload = true
  · obtain ⟨v, hv, hactive, hne, hheld⟩ := heldByAnother_iff.mp (hspares htakes)
    exact hother v hv hactive hne hheld
  · obtain ⟨hstays, hleaves⟩ := not_or.mp htakes
    obtain ⟨v, hv, hactive, hheld⟩ := hp
    by_cases hv' : v.id = k
    · have hvu : v = u := Table.eq_of_id_eq hv (Table.mem_of_get? hget) (hv'.trans hid.symm)
      subst hvu
      rw [if_neg hleaves] at hcaps
      refine ⟨v.updated payload, ?_, ?_, ?_⟩
      · rw [husers]
        exact mem_put_self hv rfl
      · show payload.isActive.getD v.isActive = true
        cases hset : payload.isActive with
        | none => exact hactive
        | some active =>
          cases active with
          | true => rfl
          | false => exact absurd hset hstays
      · rw [hasCapability_congr hcaps]
        exact hheld
    · exact hother v hv hactive hv' hheld

theorem administered_step (hp : Administered p) (hspares : SparesAdministrator S ⟨p, req, p'⟩)
    (hsteps : PlatformSteps S p req p') : Administered p' := by
  have heffect := accountEffect_of_serve S p req
  have hsame : ∀ {answer : Answer}, answer.2.db.users = p.db.users →
      answer.2.userCapabilities = p.userCapabilities → Administered answer.2 := by
    intro answer husers hcaps
    obtain ⟨u, hu, hactive, hheld⟩ := hp
    exact ⟨u, husers ▸ hu, hactive, by rw [hasCapability_congr hcaps]; exact hheld⟩
  rw [hsteps.2]
  unfold SparesAdministrator answerOf at hspares
  dsimp only at hspares
  generalize serve S p req = answer at heffect hspares
  cases heffect with
  | kept husers hcaps _ => exact hsame husers hcaps
  | passwordChanged _ husers hcaps _ => exact hsame husers hcaps
  | grown hgrows hcaps _ =>
    obtain ⟨u, hu, hactive, hheld⟩ := hp
    exact ⟨u, mem_of_grows hgrows hu, hactive, by rw [hasCapability_congr hcaps]; exact hheld⟩
  | createdHr _ _ _ _ _ hgrows v _ _ hcaps _ =>
    obtain ⟨u, hu, hactive, hheld⟩ := hp
    have hold : u.id ≤ p.db.users.seq := p.db.users.le_seq u hu
    refine ⟨u, mem_of_grows hgrows hu, hactive, ?_⟩
    rw [hasCapability_congr hcaps, hasCapability_applyDefault, if_neg (by omega)]
    exact hheld
  | updated hok caller userId payload password hcaller u hget _ husers hcaps _ =>
    obtain ⟨bearer, hcall, -⟩ := hcaller
    rw [hcall] at hspares
    refine administered_updated hp hget ?_ husers hcaps
    intro htakes
    have htakes' : (payload.isActive = some false || p.entersHr userId payload) = true := by
      simpa using htakes
    simpa [sparesAdministrator, htakes'] using hspares hok
  | deleted hok caller userId hcaller _ husers hcaps _ =>
    obtain ⟨bearer, hcall, -⟩ := hcaller
    rw [hcall] at hspares
    obtain ⟨u, hu, hactive, hne, row, hrow, hrowUser, hrowCap, hgranted⟩ :=
      heldWithout_iff.mp (hspares hok)
    refine ⟨u, ?_, hactive, ?_⟩
    · rw [husers]
      exact Table.mem_filter.mpr ⟨hu, by simpa using hne⟩
    · rw [hasCapability_iff, hcaps]
      exact ⟨row, Table.mem_filter.mpr ⟨hrow, by simp [hrowUser, hne, hgranted]⟩, hrowUser, hrowCap⟩
  | departed hok caller personnelId payload hcaller account hclosing husers hcaps _ =>
    obtain ⟨bearer, hcall, -⟩ := hcaller
    rw [hcall] at hspares
    have hspared : heldByAnother p account.id .manageCapabilities = true := by
      simpa [sparesAdministrator, hclosing] using hspares hok
    obtain ⟨u, hu, hactive, hne, hheld⟩ := heldByAnother_iff.mp hspared
    refine ⟨u, ?_, hactive, ?_⟩
    · rw [husers]
      exact mem_put_of_ne hu hne
    · rw [hasCapability_congr hcaps]
      exact hheld
  | granted _ caller userId desired _ target htarget husers hcaps _ =>
    exact administered_granted hp htarget husers hcaps

end

/-- In every run whose requests spare the last administrator, from a platform that has one, there is one. -/
theorem administered_of_run (S : Deployment) {tr : List (Taken Platform PlatformRequest)} {p : Platform}
    (h : PlatformRun S Administered tr p) (hspares : ∀ x ∈ tr, SparesAdministrator S x) :
    Administered p :=
  h.invariant_of_steps (C := SparesAdministrator S) (fun _ h0 => h0)
    (fun _ _ _ hp hsteps hx => administered_step hp hx hsteps) hspares

/-- The account 4 makes the account 5 an administrator of accounts, which then switches the account 4 off; the
newest first. -/
def lastAdministratorOff : List PlatformRequest :=
  [requestAt 4 (.signedIn (bearerOf 5 .hr 3) (.updateUser 4 { isActive := some false } none)),
    requestAt 3 (.login "hr2" "secret"),
    requestAt 2 (.signedIn (bearerOf 4 .hr 1) (.setCapabilities 5 [.manageUsers])),
    requestAt 1 (.login "hr" "secret")]

theorem lastAdministratorOff_run : PlatformRun ordinarySettings Administered
    (replay (served ordinarySettings) officePlatform lastAdministratorOff)
    (endState (served ordinarySettings) officePlatform lastAdministratorOff) :=
  platformRun_replay (by decide) (by decide)

/-- The endpoint that sets capabilities would have refused; the one that switches accounts off does not. -/
theorem lastAdministratorOff_locks_out :
    ∃ tr p, PlatformRun ordinarySettings Administered tr p ∧ ¬Administered p :=
  ⟨_, _, lastAdministratorOff_run, by decide⟩

/-- The other way round: the account 4 switches the account 5 off. -/
def otherAccountOff : List PlatformRequest :=
  [requestAt 2 (.signedIn (bearerOf 4 .hr 1) (.updateUser 5 { isActive := some false } none)),
    requestAt 1 (.login "hr" "secret")]

theorem otherAccountOff_run : PlatformRun ordinarySettings Administered
    (replay (served ordinarySettings) officePlatform otherAccountOff)
    (endState (served ordinarySettings) officePlatform otherAccountOff) :=
  platformRun_replay (by decide) (by decide)

theorem otherAccountOff_administered :
    (endState (served ordinarySettings) officePlatform otherAccountOff).db.users.rows.any
        (fun u => u.id = 5 && !u.isActive) = true ∧
      Administered (endState (served ordinarySettings) officePlatform otherAccountOff) :=
  ⟨by decide, administered_of_run ordinarySettings otherAccountOff_run (by decide)⟩

end NexaHR
