import NexaHR.System.OpenRecords

/-! # One active account of a person

Nothing in the database keeps two active accounts of one person apart; every endpoint that makes, links
or revives an account has to.

* `OneAccount`: no person has two active accounts.
* `RevivesBeside`: an update switches an account on beside another one of the person.
* `oneAccount_step_iff`: the only steps that break the rule.
-/

namespace NexaHR

open Foundations

set_option autoImplicit false

def OneAccount (users : Table User) : Prop :=
  ∀ u ∈ users, ∀ v ∈ users, u.isActive = true → v.isActive = true → ∀ p, u.personnelId = some p →
    v.personnelId = some p → u = v

/-- The request updates an account without naming a person, and leaves it active beside another active
account of the person that it stays linked to. -/
def RevivesBeside (db : Database) (req : Request) : Prop :=
  ∃ userId payload u p, req.operation = .updateUser userId payload ∧ db.users.get? userId = some u ∧
    payload.link = none ∧ (u.updated payload).isActive = true ∧ (u.updated payload).personnelId = some p ∧
      ∃ v ∈ db.users, v.id ≠ u.id ∧ v.isActive = true ∧ v.personnelId = some p

section

variable {db db' : Database} {req : Request} {user : CurrentUser} {env : Env} {t : Table User} {u u' : User}

/-! ## Tables of accounts -/

theorem oneAccount_insert {mk : Nat → User} (hmk : ∀ n, HasId.id (mk n) = n) (h : OneAccount t)
    (hfree : ∀ v ∈ t, v.isActive = true → ∀ p, (mk (t.seq + 1)).personnelId = some p →
      v.personnelId ≠ some p) : OneAccount (t.insert mk hmk) := by
  intro u hu v hv huactive hvactive p hup hvp
  rcases (Table.mem_insert hmk).mp hu with hold | rfl
  · rcases (Table.mem_insert hmk).mp hv with hold' | rfl
    · exact h u hold v hold' huactive hvactive p hup hvp
    · exact absurd hup (hfree u hold huactive p hvp)
  · rcases (Table.mem_insert hmk).mp hv with hold' | rfl
    · exact absurd hvp (hfree v hold' hvactive p hup)
    · rfl

theorem oneAccount_filter (keep : User → Bool) (h : OneAccount t) : OneAccount (t.filter keep) := by
  intro u hu v hv
  exact h u (Table.mem_filter.mp hu).1 v (Table.mem_filter.mp hv).1

/-- An account that is written is the only one of its person, if the others of the person are off. -/
theorem oneAccount_put_iff (h : OneAccount t) (hu : u ∈ t) (hid : u'.id = u.id) :
    OneAccount (t.put u') ↔
      ∀ p, u'.isActive = true → u'.personnelId = some p → ∀ v ∈ t, v.id ≠ u.id → v.isActive = true →
        v.personnelId ≠ some p := by
  have hmem : u' ∈ t.put u' := Table.mem_put_self hu hid.symm
  constructor
  · intro hone p hactive hp v hv hne hvactive hvp
    have hv' : v ∈ t.put u' := by
      refine Table.mem_map.mpr ⟨v, hv, ?_⟩
      rw [if_neg fun heq => hne (heq.trans hid)]
    have heq := hone u' hmem v hv' hactive hvactive p hp hvp
    exact hne (by rw [← heq, hid])
  · intro hfree a ha b hb haactive hbactive p hap hbp
    rcases Table.mem_put ha with ⟨hold, hne⟩ | rfl
    · rcases Table.mem_put hb with ⟨hold', -⟩ | rfl
      · exact h a hold b hold' haactive hbactive p hap hbp
      · exact absurd hap (hfree p hbactive hbp a hold (fun heq => hne (heq.trans hid.symm)) haactive)
    · rcases Table.mem_put hb with ⟨hold', hne⟩ | rfl
      · exact absurd hbp (hfree p haactive hap b hold' (fun heq => hne (heq.trans hid.symm)) hbactive)
      · rfl

theorem otherAccount_eq_none {p : Nat} {excludeUserId : Option Nat} :
    db.otherAccount p excludeUserId = none ↔
      ∀ v ∈ db.users, v.personnelId = some p → v.isActive = true → some v.id = excludeUserId := by
  unfold Database.otherAccount
  rw [List.find?_eq_none]
  simp [Table.mem_def]

theorem ensureLinkable_ok {p : Nat} {excludeUserId : Option Nat} {x : Unit}
    (h : ensureLinkable db p excludeUserId = .ok x) : db.otherAccount p excludeUserId = none := by
  unfold ensureLinkable ensurePersonnelHasOneAccount at h
  simp only [bind_eq_ok] at h
  obtain ⟨-, -, h⟩ := h
  split at h
  next hnone => exact hnone
  next => cases h

/-! ## New accounts -/

theorem createUser_oneAccount {payload : UserCreate} (h : createUser db env user payload = .ok db')
    (hone : OneAccount db.users) : OneAccount db'.users := by
  unfold createUser at h
  simp only [bind_eq_ok, pure_eq_ok] at h
  obtain ⟨-, -, -, -, -, -, _, hlink, rfl⟩ := h
  refine oneAccount_insert (fun _ => rfl) hone ?_
  intro v hv hactive p hp hvp
  have hpayload : payload.personnelId = some p := hp
  unfold ensureNewLink at hlink
  rw [hpayload] at hlink
  have hother := otherAccount_eq_none.mp (ensureLinkable_ok hlink) v hv hvp hactive
  cases hother

/-- The account of a person who was not there before is the only one. -/
theorem insertOwnAccount_oneAccount {username : Option String} {p : Nat} (hone : OneAccount db.users)
    (hfresh : ∀ v ∈ db.users, v.personnelId ≠ some p) :
    OneAccount (insertOwnAccount db username p).users := by
  unfold insertOwnAccount
  split
  · exact hone
  · refine oneAccount_insert (fun _ => rfl) hone ?_
    intro v hv _ q hq
    have heq : some p = some q := hq
    rw [← heq]
    exact hfresh v hv

theorem LinksBelow.not_linked (h : LinksBelow db) :
    ∀ v ∈ db.users, v.personnelId ≠ some (db.personnel.seq + 1) := by
  intro v hv hp
  have hle := h v hv _ hp
  omega

theorem importRow_oneAccount {row : ImportRow} (hone : OneAccount db.users) (hlinks : LinksBelow db) :
    OneAccount (importRow env user db row).users := by
  have husers := @insertAccess_users (insertPersonnel db row.fields row.status) row.chain
    (insertPersonnel db row.fields row.status).personnel.seq user.id
  have hfresh := hlinks.not_linked
  refine insertOwnAccount_oneAccount ?_ ?_
  · rw [husers]
    exact hone
  · rw [husers]
    exact hfresh

theorem importRows_oneAccount {rows : List ImportRow} (hone : OneAccount db.users)
    (hlinks : LinksBelow db) : OneAccount (rows.foldl (importRow env user) db).users := by
  induction rows generalizing db with
  | nil => exact hone
  | cons row rows ih => exact ih (importRow_oneAccount hone hlinks) (linksBelow_importRow hlinks)

/-! ## People who leave -/

/-- The accounts after the update of a person: as they were, or one of them is switched off. -/
theorem updatePersonnel_keepsAccounts {personnelId : Nat} {payload : PersonnelUpdate}
    (h : updatePersonnel db env user personnelId payload = .ok db') :
    db'.users = db.users ∨
      ∃ account ∈ db.users, db'.users = db.users.put { account with isActive := false } := by
  let req : Request := ⟨user.id, env, .updatePersonnel personnelId payload⟩
  obtain ⟨_, -, -, -, _, _, users, _, _, _, -, husers, -, rfl⟩ := @updatePersonnel_ok _ _ req _ _ _ h
  rcases husers with husers | ⟨-, account, haccount, husers⟩
  · exact Or.inl husers
  · exact Or.inr ⟨account, haccount, husers⟩

theorem closed_oneAccount {account : User} (h : OneAccount t) (haccount : account ∈ t) :
    OneAccount (t.put { account with isActive := false }) := by
  refine (oneAccount_put_iff h haccount ?_).mpr ?_
  · rfl
  · intro p hactive
    cases hactive

/-! ## Updates -/

theorem updateUser_links {userId : Nat} {payload : UserUpdate}
    (h : updateUser db env user userId payload = .ok db') :
    ∃ u, db.users.get? userId = some u ∧ ensureMayLink db u payload = .ok () ∧
      db'.users = db.users.put (u.updated payload) := by
  unfold updateUser at h
  simp only [bind_eq_ok, pure_eq_ok, require_eq_ok] at h
  obtain ⟨-, -, u, hget, -, -, -, -, _, hlink, -, -, rfl⟩ := h
  exact ⟨u, hget, hlink, rfl⟩

/-- An update that names a person leaves no other active account of the person. -/
theorem ensureMayLink_free {payload : UserUpdate} {p : Nat} (h : ensureMayLink db u payload = .ok ())
    (hp : payload.link = some p) : ∀ v ∈ db.users, v.id ≠ u.id → v.isActive = true →
      v.personnelId ≠ some p := by
  unfold ensureMayLink at h
  rw [hp] at h
  simp only [bind_eq_ok] at h
  obtain ⟨_, hlinkable, -⟩ := h
  intro v hv hne hactive hvp
  have hother := otherAccount_eq_none.mp (ensureLinkable_ok hlinkable) v hv hvp hactive
  exact hne (Option.some.inj hother)

theorem updateUser_oneAccount_iff {userId : Nat} {payload : UserUpdate}
    (hop : req.operation = .updateUser userId payload)
    (h : updateUser db env user userId payload = .ok db') (hone : OneAccount db.users) :
    OneAccount db'.users ↔ ¬RevivesBeside db req := by
  obtain ⟨u, hget, hlink, husers⟩ := updateUser_links h
  have hid : (u.updated payload).id = u.id := rfl
  rw [husers, oneAccount_put_iff hone (Table.mem_of_get? hget) hid]
  constructor
  · rintro hfree ⟨userId', payload', u', p, hop', hget', -, hactive, hp, v, hv, hne, hvactive, hvp⟩
    rw [hop] at hop'
    cases hop'
    rw [hget] at hget'
    cases hget'
    exact hfree p hactive hp v hv hne hvactive hvp
  · intro hno p hactive hp v hv hne hvactive hvp
    cases hnamed : payload.link with
    | none =>
      exact hno ⟨userId, payload, u, p, hop, hget, hnamed, hactive, hp, v, hv, hne, hvactive, hvp⟩
    | some q =>
      have hq : (u.updated payload).personnelId = some q := by
        unfold UserUpdate.link at hnamed
        have hpayload : payload.personnelId = some (some q) := Option.join_eq_some_iff.mp hnamed
        unfold User.updated
        rw [hpayload]
        rfl
      rw [hq] at hp
      cases hp
      exact ensureMayLink_free hlink hnamed v hv hne hvactive hvp

/-! ## One step -/

theorem not_revivesBeside (h : ∀ userId payload, req.operation ≠ .updateUser userId payload) :
    ¬RevivesBeside db req := by
  rintro ⟨userId, payload, _, _, hop, -⟩
  exact h userId payload hop

/-- A step breaks the rule exactly when it revives an account beside another one. -/
theorem oneAccount_step_iff (h : Steps db req db') (hone : OneAccount db.users) (hlinks : LinksBelow db) :
    OneAccount db'.users ↔ ¬RevivesBeside db req := by
  have hstep : step db req = .ok db' := h
  unfold step at hstep
  rw [bind_eq_ok] at hstep
  obtain ⟨user, -, hrun⟩ := hstep
  by_cases hupdate : ∃ userId payload, req.operation = .updateUser userId payload
  · obtain ⟨userId, payload, hop⟩ := hupdate
    rw [hop] at hrun
    exact updateUser_oneAccount_iff hop hrun hone
  · have hother : ∀ userId payload, req.operation ≠ .updateUser userId payload :=
      fun userId payload hop => hupdate ⟨userId, payload, hop⟩
    refine ⟨fun _ => not_revivesBeside hother, fun _ => ?_⟩
    cases hop : req.operation with
    | updateUser userId payload => exact absurd hop (hother userId payload)
    | createUser payload =>
      rw [hop] at hrun
      exact createUser_oneAccount hrun hone
    | deleteUser userId =>
      rw [hop] at hrun
      simp only [Operation.run, NexaHR.deleteUser, bind_eq_ok, pure_eq_ok] at hrun
      obtain ⟨-, -, u, -, -, -, -, -, -, -, rfl⟩ := hrun
      exact oneAccount_filter _ hone
    | createPersonnel payload username =>
      rw [hop] at hrun
      simp only [Operation.run, NexaHR.createPersonnel, bind_eq_ok, pure_eq_ok] at hrun
      obtain ⟨-, -, -, -, -, -, -, -, rfl⟩ := hrun
      have hfresh := hlinks.not_linked
      exact insertOwnAccount_oneAccount hone hfresh
    | importPersonnel rows =>
      rw [hop] at hrun
      simp only [Operation.run, NexaHR.importPersonnel, bind_eq_ok, pure_eq_ok] at hrun
      obtain ⟨-, -, -, -, rfl⟩ := hrun
      exact importRows_oneAccount hone hlinks
    | updatePersonnel personnelId payload =>
      rw [hop] at hrun
      rcases updatePersonnel_keepsAccounts hrun with husers | ⟨account, haccount, husers⟩
      · rw [husers]
        exact hone
      · rw [husers]
        exact closed_oneAccount hone haccount
    | _ =>
      rw [hop] at hrun
      rw [(Operation.run_keepsOthers hrun).users.resolve_left Bool.false_ne_true]
      exact hone

end

end NexaHR
