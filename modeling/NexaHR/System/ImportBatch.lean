import NexaHR.Foundations.Batch
import NexaHR.Services.ImportedRows
import NexaHR.System.PersonnelWrites

/-! # What an import adds

The rows of a file are a batch: each adds a person, the chain that it names and an account.

* `access_adds`: an access row that is new is that of a row of the file.
* `commitImport_chain_iff`: the chains of the new people are those of the rows.
* `importRows_keys`: the unique columns stay so.
-/

namespace NexaHR

open Foundations

set_option autoImplicit false

/-- The seats of a chain, as the form sends them. -/
def Chain.seats (c : Chain) : EvaluationAccessUpsert := ⟨c.unitSupervisorUserId, c.deputyUserId, c.ceoUserId⟩

/-- The access row belongs to the person whom the row of the file adds. -/
def AddedBy (db : Database) (row : ImportRow) (access : EvaluationAccess) : Prop :=
  row.chain = some access.chain ∧ newPersonnel row.fields row.status access.personnelId ∈ db.personnel

/-- Somebody with the code has a chain with these seats, which was not there before. -/
def GivesChain (db db' : Database) (code : String) (seats : EvaluationAccessUpsert) : Prop :=
  ∃ person ∈ db'.personnel, person.personnelCode = code ∧
    ∃ access ∈ db'.evaluationAccess, access ∉ db.evaluationAccess ∧ access.personnelId = person.id ∧
      access.chain.seats = seats

/-- The columns that the tables keep unique. -/
structure Database.UniqueKeys (db : Database) : Prop where
  codes : (db.personnel.rows.map Personnel.personnelCode).Nodup
  usernames : (db.users.rows.map User.username).Nodup

section

variable {db db' : Database} {env : Env} {user : CurrentUser} {row : ImportRow} {rows : List ImportRow}

theorem importRow_access (env : Env) (user : CurrentUser) (db : Database) (row : ImportRow) :
    (importRow env user db row).evaluationAccess =
      (insertAccess (insertPersonnel db row.fields row.status) row.chain (db.personnel.seq + 1)
        user.id).evaluationAccess :=
  insertOwnAccount_access _ _ _

theorem insertAccess_keeps {chain : Option Chain} {personnelId userId : Nat} {access : EvaluationAccess}
    (h : access ∈ db.evaluationAccess) : access ∈ (insertAccess db chain personnelId userId).evaluationAccess := by
  unfold insertAccess
  split
  · exact h
  · exact (Table.mem_insert _).mpr (Or.inl h)

theorem mem_importRow_personnel (env : Env) (user : CurrentUser) (db : Database) (row : ImportRow) :
    newPersonnel row.fields row.status (db.personnel.seq + 1) ∈ (importRow env user db row).personnel := by
  rw [importRow_people]
  exact (Table.mem_insert _).mpr (Or.inr rfl)

/-- A row adds at most the chain of its person. -/
theorem access_adds (env : Env) (user : CurrentUser) :
    Adds (importRow env user) (fun db access => access ∈ db.evaluationAccess) AddedBy where
  keeps := by
    intro db row access haccess
    rw [importRow_access]
    exact insertAccess_keeps haccess
  new := by
    intro db row access haccess
    rcases mem_importRow haccess with hold | ⟨hchain, hid⟩
    · exact Or.inl hold
    · right
      refine ⟨hchain, ?_⟩
      rw [hid]
      exact mem_importRow_personnel env user db row
  lasts := by
    rintro db row other access ⟨hchain, hperson⟩
    refine ⟨hchain, ?_⟩
    rw [importRow_people]
    exact (Table.mem_insert _).mpr (Or.inl hperson)

/-- A row with a chain adds it wherever its turn comes. -/
theorem importRow_adds_access {chain : Chain} (hchain : row.chain = some chain) (db : Database) :
    ∃ access, access ∉ db.evaluationAccess ∧ access ∈ (importRow env user db row).evaluationAccess ∧
      AddedBy (importRow env user db row) row access := by
  refine ⟨⟨db.evaluationAccess.seq + 1, db.personnel.seq + 1, chain, some user.id⟩, ?_, ?_, hchain,
    mem_importRow_personnel env user db row⟩
  · intro hold
    have hle : db.evaluationAccess.seq + 1 ≤ db.evaluationAccess.seq := db.evaluationAccess.le_seq _ hold
    omega
  · rw [importRow_access, hchain]
    exact (Table.mem_insert _).mpr (Or.inr rfl)

/-- The people of an import get the chains of their rows, and no others. -/
theorem importRows_chain_iff {code : String} {seats : EvaluationAccessUpsert} :
    GivesChain db (rows.foldl (importRow env user) db) code seats ↔
      ∃ r ∈ rows, r.fields.personnelCode = code ∧ r.chain.map Chain.seats = some seats := by
  constructor
  · rintro ⟨person, hperson, hcode, access, haccess, hnew, hid, hseats⟩
    rcases (access_adds env user).of_mem_batch haccess with hold | ⟨r, hr, hchain, hadded⟩
    · exact absurd hold hnew
    · have hsame : newPersonnel r.fields r.status access.personnelId = person :=
        Table.eq_of_id_eq hadded hperson hid
      refine ⟨r, hr, ?_, ?_⟩
      · rw [← hcode, ← hsame]
        rfl
      · rw [hchain, Option.map_some, hseats]
  · rintro ⟨r, hr, hcode, hseats⟩
    obtain ⟨chain, hchain, hseats⟩ := Option.map_eq_some_iff.mp hseats
    obtain ⟨access, hnew, haccess, hadded, hperson⟩ :=
      (access_adds env user).mem_batch (fun s => importRow_adds_access hchain s) hr (s := db)
    refine ⟨_, hperson, hcode, access, haccess, hnew, rfl, ?_⟩
    rw [hchain] at hadded
    rw [← Option.some.inj hadded, hseats]

/-! ## The unique columns -/

theorem importRow_usernames (env : Env) (user : CurrentUser) (db : Database) (row : ImportRow) :
    (importRow env user db row).users.rows.map User.username =
      db.users.rows.map User.username ++ row.username.toList := by
  show (insertOwnAccount _ row.username _).users.rows.map User.username = _
  cases husername : row.username with
  | none =>
    show (insertAccess _ _ _ _).users.rows.map User.username = _
    rw [insertAccess_users]
    exact (List.append_nil _).symm
  | some username =>
    show ((insertAccess _ _ _ _).users.rows ++ [_]).map User.username = _
    rw [insertAccess_users, List.map_append]
    rfl

theorem importRows_codes (env : Env) (user : CurrentUser) (db : Database) (rows : List ImportRow) :
    (rows.foldl (importRow env user) db).personnel.rows.map Personnel.personnelCode =
      db.personnel.rows.map Personnel.personnelCode ++ rows.map fun r => r.fields.personnelCode := by
  induction rows generalizing db with
  | nil => exact (List.append_nil _).symm
  | cons row rows ih =>
    rw [List.foldl_cons, ih, importRow_people]
    show (db.personnel.rows ++ [_]).map Personnel.personnelCode ++ _ = _
    rw [List.map_append, List.append_assoc]
    rfl

theorem importRows_usernames (env : Env) (user : CurrentUser) (db : Database) (rows : List ImportRow) :
    (rows.foldl (importRow env user) db).users.rows.map User.username =
      db.users.rows.map User.username ++ rows.filterMap ImportRow.username := by
  induction rows generalizing db with
  | nil => exact (List.append_nil _).symm
  | cons row rows ih =>
    rw [List.foldl_cons, ih, importRow_usernames, List.append_assoc]
    cases husername : row.username with
    | none => rw [List.filterMap_cons_none husername, Option.toList_none, List.nil_append]
    | some username => rw [List.filterMap_cons_some husername, Option.toList_some, List.singleton_append]

/-- Rows that were accepted leave the unique columns so. -/
theorem importRows_keys {seen : Seen} (hkeys : db.UniqueKeys) (haccepted : ∀ r ∈ rows, Accepted db seen r)
    (hcodes : (rows.map fun r => r.fields.personnelCode).Nodup)
    (husernames : (rows.filterMap ImportRow.username).Nodup) :
    (rows.foldl (importRow env user) db).UniqueKeys where
  codes := by
    rw [importRows_codes]
    refine List.nodup_append.mpr ⟨hkeys.codes, hcodes, ?_⟩
    intro code hold other hnew heq
    obtain ⟨person, hperson, rfl⟩ := List.mem_map.mp hold
    obtain ⟨r, hr, rfl⟩ := List.mem_map.mp hnew
    exact (haccepted r hr).code_free person hperson heq
  usernames := by
    rw [importRows_usernames]
    refine List.nodup_append.mpr ⟨hkeys.usernames, husernames, ?_⟩
    intro username hold other hnew heq
    obtain ⟨u, hu, rfl⟩ := List.mem_map.mp hold
    obtain ⟨r, hr, hgiven⟩ := List.mem_filterMap.mp hnew
    exact (haccepted r hr).username_free other hgiven u hu heq

end

end NexaHR
