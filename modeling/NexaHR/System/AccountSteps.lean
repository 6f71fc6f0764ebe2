import NexaHR.System.RecordSteps

/-! # Steps of the accounts and of the access rows

What one request means for an account that exists, for a new one, and for the access rows, from
which the seats of new records are copied.

* `AccountChange`: the ways an account changes, with what was checked.
* `Effect.account`, `Effect.account_of`: from an account to what becomes of it, and back.
* `AccessSource`, `Effect.access`: where an access row comes from.
* `LinksBelow`, `Effect.linksBelow`: accounts are linked to people who exist.
-/

namespace NexaHR

open Foundations

set_option autoImplicit false

/-! ## Accounts -/

inductive AccountChange (db : Database) (req : Request) (db' : Database) (u : User) : User → Prop
  | kept : AccountChange db req db' u u
  | updated (payload : UserUpdate) (hop : req.operation = .updateUser u.id payload)
      (hseats : ensureSeatsAreKept db u payload = .ok ())
      (hlink : ensureMayLink db u payload = .ok ())
      (hrest : db' = { db with users := db.users.put (u.updated payload) }) :
      AccountChange db req db' u (u.updated payload)
  | closed (hleaving : (departing db req).isSome = true) :
      AccountChange db req db' u { u with isActive := false }

section

variable {db db' : Database} {req : Request} {user : CurrentUser} {performed : Nat → Option Action}

theorem AccountChange.id_eq {u u' : User} (h : AccountChange db req db' u u') : u'.id = u.id := by
  cases h <;> rfl

/-- A link that an account keeps or gets. -/
theorem AccountChange.link {u u' : User} {p : Nat} (h : AccountChange db req db' u u')
    (hp : u'.personnelId = some p) :
    u.personnelId = some p ∨ ∃ payload, req.operation = .updateUser u.id payload ∧
      payload.link = some p ∧ ensureMayLink db u payload = .ok () ∧
      db' = { db with users := db.users.put (u.updated payload) } := by
  cases h with
  | kept => exact Or.inl hp
  | closed => exact Or.inl hp
  | updated payload hop hseats hlink hrest =>
    have hget : payload.personnelId.getD u.personnelId = some p := hp
    cases hpayload : payload.personnelId with
    | none =>
      rw [hpayload] at hget
      exact Or.inl hget
    | some link =>
      rw [hpayload] at hget
      have hlinks : payload.link = some p := by
        unfold UserUpdate.link
        rw [hpayload]
        exact hget
      exact Or.inr ⟨payload, hop, hlinks, hlink, hrest⟩

theorem insertUser_grows (username : String) (fullName : Option String) (role : UserRole)
    (personnelId : Option Nat) :
    db.users.Grows (insertUser db username fullName role personnelId).users := by
  simp only [insertUser]
  exact Table.Grows.of_insert db.users _

theorem insertOwnAccount_grows (db : Database) (username : Option String) (personnelId : Nat) :
    db.users.Grows (insertOwnAccount db username personnelId).users := by
  unfold insertOwnAccount
  split
  · exact Table.Grows.refl _
  · exact insertUser_grows _ _ _ _

theorem insertAccess_users (chain : Option Chain) (personnelId userId : Nat) :
    (insertAccess db chain personnelId userId).users = db.users := by
  unfold insertAccess
  split <;> rfl

theorem importRow_grows (env : Env) (row : ImportRow) :
    db.users.Grows (importRow env user db row).users := by
  have h := insertOwnAccount_grows
    (insertAccess (insertPersonnel db row.fields row.status) row.chain
      (insertPersonnel db row.fields row.status).personnel.seq user.id)
    row.username (insertPersonnel db row.fields row.status).personnel.seq
  rw [insertAccess_users] at h
  exact h

theorem importRows_grows (env : Env) (rows : List ImportRow) :
    db.users.Grows (rows.foldl (importRow env user) db).users := by
  induction rows generalizing db with
  | nil => exact Table.Grows.refl _
  | cons row rows ih =>
    rw [List.foldl_cons]
    exact (importRow_grows env row).trans ih

theorem writeAccess_users (personnelId : Nat) (chain : Chain) (userId : Nat) :
    (writeAccess db personnelId chain userId).users = db.users := by
  unfold writeAccess
  split <;> rfl

/-- Opening records writes the records, their codes and the frameworks. -/
theorem openRecords_rest (env : Env) (accesses : List EvaluationAccess) :
    { openRecords db env accesses with
      indicatorFrameworks := db.indicatorFrameworks
      evaluationRecords := db.evaluationRecords
      evaluationCodeSeq := db.evaluationCodeSeq } = db := by
  have hframed : { (ensureFramework db).2 with
      indicatorFrameworks := db.indicatorFrameworks
      evaluationRecords := db.evaluationRecords
      evaluationCodeSeq := db.evaluationCodeSeq } = db := by
    rw [(ensureFramework_spec db).1]
  unfold openRecords
  generalize (ensureFramework db).2 = d at hframed ⊢
  induction accesses generalizing d with
  | nil => exact hframed
  | cons access accesses ih =>
    rw [List.foldl_cons]
    exact ih _ hframed

theorem openRecords_users (env : Env) (accesses : List EvaluationAccess) :
    (openRecords db env accesses).users = db.users := by
  have hrest := congrArg Database.users (openRecords_rest env accesses : _ = db)
  exact hrest

/-- The three ways a table of accounts changes: it grows, one account is written, one goes. -/
theorem Effect.users (h : Effect db req user performed db') :
    db.users.Grows db'.users ∨
      (∃ u ∈ db.users, ∃ u', AccountChange db req db' u u' ∧ db'.users = db.users.put u') ∨
      ∃ u ∈ db.users, isReferenced db u.id = false ∧
        db' = { db with users := db.users.filter fun v => v.id ≠ u.id } := by
  cases h with
  | userAdded username fullName role personnelId => exact Or.inl (insertUser_grows _ _ _ _)
  | userUpdated userId payload hop u hget hseats hlink =>
    right
    left
    have hid : u.id = userId := Table.id_of_get? hget
    rw [← hid] at hop
    exact ⟨u, Table.mem_of_get? hget, _, AccountChange.updated payload hop hseats hlink rfl, rfl⟩
  | userDeleted u hget hfree => exact Or.inr (Or.inr ⟨u, hget, hfree, rfl⟩)
  | personAdded p username =>
    exact Or.inl (insertOwnAccount_grows (insertPersonnel db p .active) username _)
  | imported rows => exact Or.inl (importRows_grows _ rows)
  | personUpdated _ _ _ _ _ _ _ _ _ users husers =>
    rcases husers with rfl | ⟨hleaving, account, haccount, rfl⟩
    · exact Or.inl (Table.Grows.refl _)
    · exact Or.inr (Or.inl ⟨account, haccount, _, AccountChange.closed hleaving, rfl⟩)
  | accessWritten =>
    rw [writeAccess_users]
    exact Or.inl (Table.Grows.refl _)
  | opened =>
    rw [openRecords_users]
    exact Or.inl (Table.Grows.refl _)
  | _ => exact Or.inl (Table.Grows.refl _)

/-- An account stays, changed in one of the ways of `AccountChange`, or nothing names it. -/
theorem Effect.account (h : Effect db req user performed db') {k : Nat} {u : User}
    (hget : db.users.get? k = some u) :
    (∃ u', db'.users.get? k = some u' ∧ AccountChange db req db' u u') ∨
      isReferenced db k = false ∧ db'.evaluationRecords = db.evaluationRecords := by
  rcases h.users with hgrows | ⟨v, hv, v', hchange, heq⟩ | ⟨v, hv, hfree, heq⟩
  · exact Or.inl ⟨u, hgrows.keeps k u hget, AccountChange.kept⟩
  · left
    rw [heq, Table.get?_put, hget]
    by_cases hid : u.id = v.id
    · have hu : u = v := Table.eq_of_id_eq (Table.mem_of_get? hget) hv hid
      subst hu
      have heqid : HasId.id u = HasId.id v' := hchange.id_eq.symm
      refine ⟨v', ?_, hchange⟩
      rw [Option.map_some, if_pos heqid]
    · refine ⟨u, ?_, AccountChange.kept⟩
      have hne : ¬HasId.id u = HasId.id v' := fun he => hid (he.trans hchange.id_eq)
      rw [Option.map_some, if_neg hne]
  · by_cases hid : k = v.id
    · rw [hid, heq]
      exact Or.inr ⟨hfree, rfl⟩
    · left
      have huid : u.id = k := Table.id_of_get? hget
      refine ⟨u, ?_, AccountChange.kept⟩
      rw [heq, Table.get?_filter, hget, Option.filter_some, if_pos]
      rw [decide_eq_true_eq, huid]
      exact hid

/-- An account of the next state was there, or has a new key. -/
theorem Effect.account_of (h : Effect db req user performed db') {k : Nat} {u' : User}
    (hget : db'.users.get? k = some u') :
    (∃ u, db.users.get? k = some u ∧ AccountChange db req db' u u') ∨ db.users.seq < k := by
  rcases h.users with hgrows | ⟨v, hv, v', hchange, heq⟩ | ⟨v, hv, hfree, heq⟩
  · rcases hgrows.fresh k u' hget with hold | hnew
    · exact Or.inl ⟨u', hold, AccountChange.kept⟩
    · exact Or.inr hnew
  · left
    rw [heq, Table.get?_put] at hget
    obtain ⟨u, hu, hif⟩ := Option.map_eq_some_iff.mp hget
    refine ⟨u, hu, ?_⟩
    by_cases hid : u.id = v.id
    · have huv : u = v := Table.eq_of_id_eq (Table.mem_of_get? hu) hv hid
      subst huv
      have heqid : HasId.id u = HasId.id v' := hchange.id_eq.symm
      rw [if_pos heqid] at hif
      subst hif
      exact hchange
    · have hne : ¬HasId.id u = HasId.id v' := fun he => hid (he.trans hchange.id_eq)
      rw [if_neg hne] at hif
      subst hif
      exact AccountChange.kept
  · left
    rw [heq, Table.get?_filter] at hget
    exact ⟨u', (Option.filter_eq_some_iff.mp hget).1, AccountChange.kept⟩

theorem Effect.users_seq_le (h : Effect db req user performed db') :
    db.users.seq ≤ db'.users.seq := by
  rcases h.users with hgrows | ⟨_, _, _, _, heq⟩ | ⟨_, _, _, heq⟩
  · exact hgrows.seq_le
  · rw [heq, Table.seq_put]
  · rw [heq, Table.seq_filter]

/-! ## Access rows -/

/-- Where an access row comes from: its seats are those of a row that was there, without new
occupants, or it was written for occupants who are live and are not its person. -/
inductive AccessSource (db : Database) (access : EvaluationAccess) : Prop
  | kept (old : EvaluationAccess) (hold : old ∈ db.evaluationAccess)
      (hperson : access.personnelId = old.personnelId)
      (hseats : ∀ seat k, access.chain.seat seat = some k → old.chain.seat seat = some k)
  | written (hlive : ∀ seat k, access.chain.seat seat = some k → IsLive db seat k)
      (hothers : (∀ u ∈ db.users, u.id ∈ access.chain.occupants →
        u.personnelId ≠ some access.personnelId) ∨ db.personnel.seq < access.personnelId)

theorem AccessSource.self {access : EvaluationAccess} (h : access ∈ db.evaluationAccess) :
    AccessSource db access :=
  AccessSource.kept access h rfl fun _ _ hseat => hseat

theorem clearSupervisor_seat {c : Chain} {seat : ChainSeat} {k : Nat}
    (h : c.clearSupervisor.seat seat = some k) : c.seat seat = some k := by
  cases seat with
  | unitSupervisor => cases h
  | deputy => exact h
  | ceo => exact h

theorem insertOwnAccount_access (db : Database) (username : Option String) (personnelId : Nat) :
    (insertOwnAccount db username personnelId).evaluationAccess = db.evaluationAccess := by
  unfold insertOwnAccount
  split <;> rfl

theorem insertOwnAccount_personnel (db : Database) (username : Option String) (personnelId : Nat) :
    (insertOwnAccount db username personnelId).personnel = db.personnel := by
  unfold insertOwnAccount
  split <;> rfl

theorem insertAccess_personnel (chain : Option Chain) (personnelId userId : Nat) :
    (insertAccess db chain personnelId userId).personnel = db.personnel := by
  unfold insertAccess
  split <;> rfl

theorem mem_insertAccess {chain : Option Chain} {personnelId userId : Nat} {access : EvaluationAccess}
    (h : access ∈ (insertAccess db chain personnelId userId).evaluationAccess) :
    access ∈ db.evaluationAccess ∨ chain = some access.chain ∧ access.personnelId = personnelId := by
  unfold insertAccess at h
  split at h
  · exact Or.inl h
  next c =>
    rcases (Table.mem_insert _).mp h with hold | rfl
    · exact Or.inl hold
    · exact Or.inr ⟨rfl, rfl⟩

theorem importRow_personnel_seq (env : Env) (row : ImportRow) :
    (importRow env user db row).personnel.seq = db.personnel.seq + 1 := by
  show (insertOwnAccount _ _ _).personnel.seq = _
  rw [insertOwnAccount_personnel, insertAccess_personnel]
  rfl

theorem mem_importRow {env : Env} {row : ImportRow} {access : EvaluationAccess}
    (h : access ∈ (importRow env user db row).evaluationAccess) :
    access ∈ db.evaluationAccess ∨
      row.chain = some access.chain ∧ access.personnelId = db.personnel.seq + 1 := by
  have h' : access ∈ (insertOwnAccount (insertAccess (insertPersonnel db row.fields row.status)
      row.chain (insertPersonnel db row.fields row.status).personnel.seq user.id) row.username
      (insertPersonnel db row.fields row.status).personnel.seq).evaluationAccess := h
  rw [insertOwnAccount_access] at h'
  rcases mem_insertAccess h' with hold | hnew
  · exact Or.inl hold
  · exact Or.inr hnew

/-- The rows that an import adds are about the people it adds. -/
theorem mem_importRows {env : Env} {rows : List ImportRow} {access : EvaluationAccess}
    (h : access ∈ (rows.foldl (importRow env user) db).evaluationAccess) :
    access ∈ db.evaluationAccess ∨
      ∃ row ∈ rows, row.chain = some access.chain ∧ db.personnel.seq < access.personnelId := by
  induction rows generalizing db with
  | nil => exact Or.inl h
  | cons row rows ih =>
    rw [List.foldl_cons] at h
    rcases ih h with hold | ⟨other, hother, hchain, hnew⟩
    · rcases mem_importRow hold with hold | ⟨hchain, hid⟩
      · exact Or.inl hold
      · refine Or.inr ⟨row, List.mem_cons_self, hchain, ?_⟩
        omega
    · rw [importRow_personnel_seq] at hnew
      refine Or.inr ⟨other, List.mem_cons_of_mem _ hother, hchain, ?_⟩
      omega

theorem mem_writeAccess {personnelId userId : Nat} {chain : Chain} {access : EvaluationAccess}
    (h : access ∈ (writeAccess db personnelId chain userId).evaluationAccess) :
    access ∈ db.evaluationAccess ∨ access.chain = chain ∧ access.personnelId = personnelId := by
  unfold writeAccess at h
  split at h
  next old hfind =>
    rcases Table.mem_put h with ⟨hold, -⟩ | rfl
    · exact Or.inl hold
    · have hperson := List.find?_some hfind
      rw [decide_eq_true_eq] at hperson
      exact Or.inr ⟨rfl, hperson⟩
  next =>
    rcases (Table.mem_insert _).mp h with hold | rfl
    · exact Or.inl hold
    · exact Or.inr ⟨rfl, rfl⟩

theorem openRecords_access (env : Env) (accesses : List EvaluationAccess) :
    (openRecords db env accesses).evaluationAccess = db.evaluationAccess := by
  have hrest := congrArg Database.evaluationAccess (openRecords_rest env accesses : _ = db)
  exact hrest

theorem Effect.access (h : Effect db req user performed db') {access : EvaluationAccess}
    (haccess : access ∈ db'.evaluationAccess) : AccessSource db access := by
  cases h with
  | accessWritten personnelId hperson chain hlive hother =>
    rcases mem_writeAccess haccess with hold | ⟨hchain, hid⟩
    · exact AccessSource.self hold
    · rw [← hchain] at hlive hother
      rw [← hid] at hother
      exact AccessSource.written hlive (Or.inl hother)
  | imported rows hlive =>
    rcases mem_importRows haccess with hold | ⟨row, hrow, hchain, hnew⟩
    · exact AccessSource.self hold
    · exact AccessSource.written (hlive row hrow _ hchain) (Or.inr hnew)
  | personUpdated _ _ _ _ _ _ _ _ _ _ _ accesses haccesses =>
    rcases haccesses with rfl | ⟨old, hold, rfl⟩
    · exact AccessSource.self haccess
    · rcases Table.mem_put haccess with ⟨hkept, -⟩ | rfl
      · exact AccessSource.self hkept
      · exact AccessSource.kept old hold rfl fun _ _ hseat => clearSupervisor_seat hseat
  | personAdded p username =>
    rw [insertOwnAccount_access] at haccess
    exact AccessSource.self haccess
  | opened =>
    rw [openRecords_access] at haccess
    exact AccessSource.self haccess
  | _ => exact AccessSource.self haccess

/-! ## Links -/

/-- No account is linked to a person who does not exist yet. -/
def LinksBelow (db : Database) : Prop :=
  ∀ u ∈ db.users, ∀ p, u.personnelId = some p → p ≤ db.personnel.seq

theorem linksBelow_insertUser {username : String} {fullName : Option String} {role : UserRole}
    {personnelId : Option Nat} (h : LinksBelow db)
    (hp : ∀ p, personnelId = some p → p ≤ db.personnel.seq) :
    LinksBelow (insertUser db username fullName role personnelId) := by
  intro u hu p hlink
  rcases (Table.mem_insert _).mp hu with hold | rfl
  · exact h u hold p hlink
  · exact hp p hlink

theorem linksBelow_insertOwnAccount {username : Option String} {personnelId : Nat} (h : LinksBelow db)
    (hp : personnelId ≤ db.personnel.seq) : LinksBelow (insertOwnAccount db username personnelId) := by
  unfold insertOwnAccount
  split
  · exact h
  · refine linksBelow_insertUser h ?_
    intro p hlink
    cases hlink
    exact hp

theorem linksBelow_of_le {d : Database} (h : LinksBelow db) (husers : d.users = db.users)
    (hseq : db.personnel.seq ≤ d.personnel.seq) : LinksBelow d := by
  intro u hu p hlink
  rw [husers] at hu
  exact Nat.le_trans (h u hu p hlink) hseq

theorem linksBelow_importRow {env : Env} {row : ImportRow} (h : LinksBelow db) :
    LinksBelow (importRow env user db row) := by
  have hcreated : LinksBelow (insertAccess (insertPersonnel db row.fields row.status) row.chain
      (insertPersonnel db row.fields row.status).personnel.seq user.id) := by
    refine linksBelow_of_le h (insertAccess_users _ _ _) ?_
    rw [insertAccess_personnel]
    exact Nat.le_succ _
  refine linksBelow_insertOwnAccount hcreated ?_
  rw [insertAccess_personnel]

theorem linksBelow_importRows {env : Env} {rows : List ImportRow} (h : LinksBelow db) :
    LinksBelow (rows.foldl (importRow env user) db) := by
  induction rows generalizing db with
  | nil => exact h
  | cons row rows ih =>
    rw [List.foldl_cons]
    exact ih (linksBelow_importRow h)

theorem openRecords_personnel (env : Env) (accesses : List EvaluationAccess) :
    (openRecords db env accesses).personnel = db.personnel := by
  have hrest := congrArg Database.personnel (openRecords_rest env accesses : _ = db)
  exact hrest

theorem writeAccess_personnel (personnelId : Nat) (chain : Chain) (userId : Nat) :
    (writeAccess db personnelId chain userId).personnel = db.personnel := by
  unfold writeAccess
  split <;> rfl

/-- A link that an update gives is to a person who exists. -/
theorem ensureMayLink_ok {u : User} {payload : UserUpdate} {p : Nat}
    (h : ensureMayLink db u payload = .ok ()) (hp : payload.link = some p) :
    (db.personnel.get? p).isSome = true ∧ isEvaluatorOf db u.id p = false := by
  unfold ensureMayLink at h
  rw [hp] at h
  simp only [bind_eq_ok, ensureLinkable, ensureUserLinkIsNotSelfEvaluation, ensure_eq_ok] at h
  obtain ⟨-, ⟨-, hperson, -⟩, hfree⟩ := h
  exact ⟨hperson, hfree⟩

theorem le_seq_of_isSome {p : Nat} (h : (db.personnel.get? p).isSome = true) :
    p ≤ db.personnel.seq := by
  obtain ⟨person, hperson⟩ := Option.isSome_iff_exists.mp h
  exact Table.le_seq_of_get? hperson

theorem Effect.linksBelow (h : Effect db req user performed db') (hlinks : LinksBelow db) :
    LinksBelow db' := by
  cases h with
  | userAdded username fullName role personnelId hperson =>
    exact linksBelow_insertUser hlinks fun p hp => le_seq_of_isSome (hperson p hp)
  | userUpdated userId payload hop u hget hseats hlink =>
    intro v hv p hp
    rcases Table.mem_put hv with ⟨hold, -⟩ | rfl
    · exact hlinks v hold p hp
    · have hid : u.id = userId := Table.id_of_get? hget
      rw [← hid] at hop
      rcases (AccountChange.updated payload hop hseats hlink rfl).link hp with
        hkept | ⟨_, -, hto, hmay, -⟩
      · exact hlinks u (Table.mem_of_get? hget) p hkept
      · exact le_seq_of_isSome (ensureMayLink_ok hmay hto).1
  | userDeleted =>
    intro v hv p hp
    exact hlinks v (Table.mem_filter.mp hv).1 p hp
  | personAdded p username =>
    exact linksBelow_insertOwnAccount (linksBelow_of_le hlinks rfl (Nat.le_succ _)) (Nat.le_refl _)
  | imported => exact linksBelow_importRows hlinks
  | accessWritten =>
    refine linksBelow_of_le hlinks (writeAccess_users _ _ _) ?_
    rw [writeAccess_personnel]
  | opened =>
    refine linksBelow_of_le hlinks (openRecords_users _ _) ?_
    rw [openRecords_personnel]
  | personUpdated _ _ _ people hseq _ _ _ _ users husers =>
    intro v hv p hp
    show p ≤ people.seq
    rw [hseq]
    rcases husers with rfl | ⟨-, account, haccount, rfl⟩
    · exact hlinks v hv p hp
    · rcases Table.mem_put hv with ⟨hold, -⟩ | rfl
      · exact hlinks v hold p hp
      · exact hlinks account haccount p hp
  | elsewhere _ people hseq => exact linksBelow_of_le hlinks rfl (Nat.le_of_eq hseq.symm)
  | _ => exact hlinks

end

end NexaHR
