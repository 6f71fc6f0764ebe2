import NexaHR.Routers.People
import NexaHR.System.Installation

/-! # Who sees whom

The list asks for the column of the user's role, the detail page for any seat, also in a record, the search
of the assistant for the linked person besides, and its prompt for that, but for no record.

* `SeatedByColumn`, `SeatedInAccess`, `SeatedInRecord`, `IsSelf`: how a user is related to a person.
* `listed_iff`, `opened_iff`, `found_iff`, `prompted_iff`: the four answers.
* `personnel_views_agree_iff`: when they agree.
-/

namespace NexaHR

open Foundations

set_option autoImplicit false

/-- What the schema says of the two tables: one access row for a person, and keys that count from one. -/
structure PersonnelSchema (db : Database) : Prop where
  access_unique : ∀ access ∈ db.evaluationAccess, ∀ access' ∈ db.evaluationAccess,
    access.personnelId = access'.personnelId → access = access'
  key_pos : ∀ person ∈ db.personnel, 0 < person.id

/-! ## How a user is related to a person -/

section

variable (db : Database) (user : CurrentUser) (person : Personnel)

/-- He has the seat of his role in the person's access row. -/
def SeatedByColumn : Prop :=
  ∃ column, accessColumnByRole user.role = some column ∧
    ∃ access ∈ db.evaluationAccess, access.personnelId = person.id ∧ access.chain.seat column = some user.id

def SeatedInAccess : Prop :=
  ∃ access ∈ db.evaluationAccess, access.personnelId = person.id ∧ user.id ∈ access.chain.occupants

def SeatedInRecord : Prop :=
  ∃ r ∈ db.evaluationRecords, r.subjectPersonnelId = person.id ∧ user.id ∈ r.chain.occupants

def IsSelf : Prop := user.personnelId = some person.id

/-- All four answers are the same. -/
structure ViewsAgree (env : Env) : Prop where
  list_get : person ∈ listPersonnel db env user false (fun _ => true) ↔
    (getPersonnel db env user person.id).isOk = true
  get_search : (getPersonnel db env user person.id).isOk = true ↔
    person ∈ searchPersonnel db env user fun _ => true
  search_context : person ∈ searchPersonnel db env user (fun _ => true) ↔
    person ∈ contextPersonnel db env user

end

section

variable {db : Database} {env : Env} {user : CurrentUser} {person : Personnel}

theorem seatedInAccess_of_column (h : SeatedByColumn db user person) : SeatedInAccess db user person := by
  obtain ⟨column, -, access, haccess, hperson, hseat⟩ := h
  exact ⟨access, haccess, hperson, Chain.mem_occupants.mpr ⟨column, hseat⟩⟩

theorem mem_accessIds {k : Nat} : k ∈ accessIds db user ↔
    ∃ access ∈ db.evaluationAccess, access.personnelId = k ∧ user.id ∈ access.chain.occupants := by
  unfold accessIds
  simp only [List.mem_map, List.mem_filter, List.contains_iff_mem, Table.mem_def]
  constructor
  · rintro ⟨access, ⟨haccess, hseat⟩, hperson⟩
    exact ⟨access, haccess, hperson, hseat⟩
  · rintro ⟨access, haccess, hperson, hseat⟩
    exact ⟨access, ⟨haccess, hseat⟩, hperson⟩

theorem mem_recordIds {k : Nat} : k ∈ recordIds db user ↔
    ∃ r ∈ db.evaluationRecords, r.subjectPersonnelId = k ∧ user.id ∈ r.chain.occupants := by
  unfold recordIds
  simp only [List.mem_map, List.mem_filter, List.contains_iff_mem, Table.mem_def]
  constructor
  · rintro ⟨r, ⟨hr, hseat⟩, hperson⟩
    exact ⟨r, hr, hperson, hseat⟩
  · rintro ⟨r, hr, hperson, hseat⟩
    exact ⟨r, ⟨hr, hseat⟩, hperson⟩

theorem mem_ownId (hpos : 0 < person.id) : person.id ∈ ownId user ↔ IsSelf user person := by
  unfold ownId IsSelf
  cases hown : user.personnelId with
  | none => simp
  | some k =>
    by_cases hk : k = 0
    · subst hk
      have hne : 0 ≠ person.id := by omega
      simp [Option.filter, hne]
    · simp [Option.filter, hk, eq_comm]

/-- The access row that the detail page finds is the person's only one. -/
theorem accessOf_any (hschema : PersonnelSchema db) :
    ((db.accessOf person.id).any fun access => access.chain.occupants.contains user.id) = true ↔
      SeatedInAccess db user person := by
  unfold Database.accessOf
  constructor
  · intro h
    obtain ⟨access, hfound, hseat⟩ := exists_of_any h
    refine ⟨access, List.mem_of_find?_eq_some hfound, ?_, by simpa using hseat⟩
    simpa using List.find?_some hfound
  · rintro ⟨access, haccess, hperson, hseat⟩
    cases hfound : db.evaluationAccess.rows.find? fun access => access.personnelId = person.id with
    | none =>
      have hmiss := List.find?_eq_none.mp hfound access haccess
      simp [hperson] at hmiss
    | some other =>
      have hother : other.personnelId = person.id := by simpa using List.find?_some hfound
      have hsame : other = access :=
        hschema.access_unique other (List.mem_of_find?_eq_some hfound) access haccess
          (hother.trans hperson.symm)
      rw [hsame]
      simpa using hseat

/-! ## The four answers -/

/-- Four answers from the five relations. -/
theorem agree_iff {all column access record self : Prop} (hcolumn : column → access) :
    ((all ∨ column ↔ all ∨ access ∨ record) ∧
        (all ∨ access ∨ record ↔ all ∨ access ∨ record ∨ self) ∧
        (all ∨ access ∨ record ∨ self ↔ all ∨ access ∨ self)) ↔
      all ∨ column ∨ (¬ access ∧ ¬ record ∧ ¬ self) := by
  constructor
  · rintro ⟨hlist, hsearch, -⟩
    by_cases hall : all
    · exact Or.inl hall
    by_cases hlisted : column
    · exact Or.inr (Or.inl hlisted)
    have hclosed : ¬ (all ∨ access ∨ record) := by
      intro hopen
      obtain h | h := hlist.mpr hopen
      · exact hall h
      · exact hlisted h
    have hmissed : ¬ (all ∨ access ∨ record ∨ self) := fun hfound => hclosed (hsearch.mpr hfound)
    simp only [not_or] at hmissed
    exact Or.inr (Or.inr hmissed.2)
  · rintro (hall | hlisted | ⟨haccess, hrecord, hself⟩)
    · simp [hall]
    · simp [hlisted, hcolumn hlisted]
    · have hunlisted : ¬ column := fun hlisted => haccess (hcolumn hlisted)
      simp [haccess, hrecord, hself, hunlisted]

theorem listed_iff (hperson : person ∈ db.personnel) :
    person ∈ listPersonnel db env user false (fun _ => true) ↔
      seesAllPersonnel user.role env.capabilities = true ∨ SeatedByColumn db user person := by
  unfold listPersonnel SeatedByColumn
  by_cases hall : seesAllPersonnel user.role env.capabilities = true
  · simp [hall, Table.mem_def.mp hperson]
  · cases hcolumn : accessColumnByRole user.role with
    | none => simp [hall]
    | some column => simp [hall, Table.mem_def, Table.mem_def.mp hperson]

theorem opened_iff (hschema : PersonnelSchema db) (hperson : person ∈ db.personnel) :
    (getPersonnel db env user person.id).isOk = true ↔
      seesAllPersonnel user.role env.capabilities = true ∨ SeatedInAccess db user person ∨
        SeatedInRecord db user person := by
  have hget : db.personnel.get? person.id = some person := Table.get?_of_mem hperson
  have hok : (getPersonnel db env user person.id).isOk = true ↔
      canViewPersonnel db env person.id user = true := by
    unfold getPersonnel
    rw [hget]
    by_cases hview : canViewPersonnel db env person.id user = true
    · simp [require, ensure, hview, Except.isOk, Except.toBool, bind, Except.bind, pure, Except.pure]
    · simp [require, ensure, hview, Except.isOk, Except.toBool, bind, Except.bind]
  rw [hok]
  unfold canViewPersonnel
  rw [Bool.or_eq_true, Bool.or_eq_true, accessOf_any hschema, or_assoc]
  unfold SeatedInRecord
  simp [Table.mem_def]

theorem found_iff (hschema : PersonnelSchema db) (hperson : person ∈ db.personnel) :
    person ∈ searchPersonnel db env user (fun _ => true) ↔
      seesAllPersonnel user.role env.capabilities = true ∨ SeatedInAccess db user person ∨
        SeatedInRecord db user person ∨ IsSelf user person := by
  have hpos := hschema.key_pos person hperson
  unfold searchPersonnel toolVisibleIds
  by_cases hall : seesAllPersonnel user.role env.capabilities = true
  · simp [hall, Table.mem_def.mp hperson]
  · rw [if_neg hall]
    have hids : ∀ ids : List Nat, person.id ∈ (if ids.isEmpty then [0] else ids) ↔ person.id ∈ ids := by
      intro ids
      by_cases hempty : ids.isEmpty = true
      · rw [if_pos hempty, List.isEmpty_iff.mp hempty]
        simp
        omega
      · rw [if_neg hempty]
    simp only [List.mem_filter, Bool.and_true, List.contains_iff_mem, hids, List.mem_append,
      mem_accessIds, mem_recordIds, mem_ownId hpos, Table.mem_def.mp hperson, true_and, hall,
      Bool.false_eq_true, false_or, or_assoc]
    exact Iff.rfl

theorem prompted_iff (hschema : PersonnelSchema db) (hperson : person ∈ db.personnel) :
    person ∈ contextPersonnel db env user ↔
      seesAllPersonnel user.role env.capabilities = true ∨ SeatedInAccess db user person ∨
        IsSelf user person := by
  have hpos := hschema.key_pos person hperson
  unfold contextPersonnel contextVisibleIds
  by_cases hall : seesAllPersonnel user.role env.capabilities = true
  · simp [hall, Table.mem_def.mp hperson]
  · rw [if_neg hall]
    simp only [List.mem_filter, List.contains_iff_mem, List.mem_append, mem_accessIds, mem_ownId hpos,
      Table.mem_def.mp hperson, true_and, hall, Bool.false_eq_true, false_or]
    exact Iff.rfl

end

/-- The list, the detail page, the assistant's search and its prompt agree on a person exactly when the user
sees everybody, or has the seat of his role in the person's access row, or has no seat there nor in a record
about the person, and is not the person. -/
theorem personnel_views_agree_iff (db : Database) (env : Env) (user : CurrentUser) (person : Personnel)
    (hschema : PersonnelSchema db) (hperson : person ∈ db.personnel) :
    ViewsAgree db user person env ↔
      seesAllPersonnel user.role env.capabilities = true ∨ SeatedByColumn db user person ∨
        (¬ SeatedInAccess db user person ∧ ¬ SeatedInRecord db user person ∧ ¬ IsSelf user person) := by
  rw [← agree_iff seatedInAccess_of_column, ← listed_iff hperson, ← opened_iff hschema hperson,
    ← found_iff hschema hperson, ← prompted_iff hschema hperson]
  constructor
  · intro h
    exact ⟨h.list_get, h.get_search, h.search_context⟩
  · intro h
    exact ⟨h.1, h.2.1, h.2.2⟩

/-! ## A deputy in the seat of a supervisor -/

/-- The second deputy supervises the employee of the office. -/
def deputySupervises : Database := office deputyAsSupervisor

def secondDeputy : CurrentUser := { id := 6, username := "deputy2", role := .deputy, personnelId := none }

def dayOfNobody : Env := { someDay with capabilities := [] }

theorem deputySupervises_schema : PersonnelSchema deputySupervises where
  access_unique := by
    intro access haccess access' haccess' _
    exact (List.mem_singleton.mp haccess).trans (List.mem_singleton.mp haccess').symm
  key_pos := by
    intro person hperson
    rw [List.mem_singleton.mp hperson]
    decide

/-- The detail page opens for him, and the list does not have the employee. -/
theorem deputySupervises_disagree :
    ∃ db env user person, PersonnelSchema db ∧ person ∈ db.personnel ∧ user.id ∈ db.users.rows.map User.id ∧
      (getPersonnel db env user person.id).isOk = true ∧
        person ∉ listPersonnel db env user false (fun _ => true) :=
  ⟨deputySupervises, dayOfNobody, secondDeputy, employee 1, deputySupervises_schema,
    List.mem_singleton.mpr rfl, by decide, by decide, by decide⟩

/-- On the first deputy all agree. -/
theorem deputySupervises_agree :
    ViewsAgree deputySupervises { secondDeputy with id := 2 } (employee 1) dayOfNobody :=
  (personnel_views_agree_iff deputySupervises dayOfNobody { secondDeputy with id := 2 } (employee 1)
    deputySupervises_schema (List.mem_singleton.mpr rfl)).mpr
    (Or.inr (Or.inl ⟨.deputy, rfl, accessRow deputyAsSupervisor,
      List.mem_singleton.mpr rfl, rfl, rfl⟩))

end NexaHR
