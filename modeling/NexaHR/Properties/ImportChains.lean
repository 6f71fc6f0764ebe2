import NexaHR.Properties.PersonnelRecords
import NexaHR.System.ImportBatch

/-! # The chains of an import

The import makes the chains of the people it adds from the names in three columns. The form for a chain is the
other way to the same table, and knows the accounts by their keys.

* `Means`, `SeatsNamed`: whom the cells of a row name, and `FormAccepts`: whether the form takes them.
* `ImportsChains`: what an import promises for the rows of a file.
* `CarriesOver`: what seats that the form takes need, so that the import takes them.
* `import_chains_iff`: exactly when an import keeps its promise.
* `ceo_alone_is_lost`: it does not always.
-/

namespace NexaHR

open Foundations

set_option autoImplicit false

/-! ## Whom a row names -/

def User.HasName (u : User) (written : String) : Prop := u.fullName.map strip = some written

/-- An active account of the name, or of the login name where no active account has the name. -/
def Means (db : Database) (written : String) (u : User) : Prop :=
  u ∈ db.users ∧ u.isActive = true ∧
    (u.HasName written ∨ (∀ v ∈ db.users, v.isActive = true → ¬ v.HasName written) ∧ u.username = written)

/-- Nobody, or the one account that is meant. -/
def Names (db : Database) (written : String) : Option Nat → Prop
  | none => written ∈ absentWords
  | some userId => written ∉ absentWords ∧ ∃ u, u.id = userId ∧ ∀ v, Means db written v ↔ v = u

theorem names_none {db : Database} {written : String} : Names db written none ↔ written ∈ absentWords := Iff.rfl

/-- The active accounts of chief executives. -/
def chiefs (db : Database) : List User := db.users.rows.filter fun u => u.isActive && u.role = .ceo

def User.hasAnyName (u : User) : Bool := (u.fullName.filter (· ≠ "")).isSome

/-- The one who is named, or in an empty cell the only one there is. -/
def NamesChief (db : Database) (written : String) (userId : Nat) : Prop :=
  Names db written (some userId) ∨ written ∈ absentWords ∧ (chiefs db).map User.id = [userId]

structure SeatsNamed (db : Database) (written : ChainSeat → String) (seats : EvaluationAccessUpsert) : Prop where
  supervisor : Names db (written .unitSupervisor) seats.unitSupervisorUserId
  deputy : Names db (written .deputy) seats.deputyUserId
  ceo : NamesChief db (written .ceo) seats.ceoUserId

/-! ## What is promised -/

/-- The form takes the seats for the person of the row, once that person is there. -/
def FormAccepts (db : Database) (env : Env) (user : CurrentUser) (row : ImportRow)
    (seats : EvaluationAccessUpsert) : Prop :=
  ∃ db', upsertAccess (insertPersonnel db row.fields row.status) env user (db.personnel.seq + 1) seats = .ok db'

/-- A row with nothing wrong but perhaps its chain, that names seats which the form takes. -/
structure Seatable (db : Database) (env : Env) (user : CurrentUser) (sheet : List (List Cell)) (row : CheckedRow)
    (seats : EvaluationAccessUpsert) : Prop where
  only : row.OnlyChain db (writtenAt sheet)
  named : SeatsNamed db (writtenAt sheet row.rowNumber) seats
  accepted : ∃ r, row.toImport = some r ∧ FormAccepts db env user r seats

/-- The import is not refused by the database, adds the valid rows with the chains that they name, and has filled
an empty cell only with the one chief executive. -/
structure ImportsChains (db : Database) (env : Env) (user : CurrentUser) (sheet : List (List Cell))
    (preview : ImportPreview) : Prop where
  commits : ∃ db', commitImport db env user preview = .ok db' ∧ (db.UniqueKeys → db'.UniqueKeys) ∧
    (∀ row ∈ preview.valid, ∃ r id, row.toImport = some r ∧ newPersonnel r.fields r.status id ∈ db'.personnel) ∧
    ∀ row ∈ preview.rows, ∀ seats, Seatable db env user sheet row seats → GivesChain db db' row.personnelCode seats
  filled : ∀ row ∈ preview.rows, writtenAt sheet row.rowNumber .ceo ∈ absentWords →
    ∀ k, row.ceoUserId = some k → (chiefs db).map User.id = [k]

/-! ## When it is kept -/

/-- The texts fit their columns. -/
def CheckedRow.FitsColumns (row : CheckedRow) : Prop :=
  row.personnelCode.length ≤ 50 ∧ row.fullName.length ≤ 200 ∧ row.jobTitle.length ≤ 150 ∧ row.orgUnit.length ≤ 150

instance (row : CheckedRow) : Decidable row.FitsColumns := inferInstanceAs (Decidable (_ ∧ _))

/-- Somebody sits below the chief executive, no cell has the person's own name, and an empty cell stands for a chief
executive who has a name. -/
structure CarriesOver (db : Database) (written : ChainSeat → String) (fullName : String)
    (seats : EvaluationAccessUpsert) : Prop where
  scored : seats.unitSupervisorUserId.isSome = true ∨ seats.deputyUserId.isSome = true
  other : ∀ seat, written seat ∉ absentWords → written seat ≠ fullName
  chief : written .ceo ∈ absentWords → ∀ u ∈ chiefs db, u.hasAnyName = true

section

variable {db db' : Database} {env : Env} {user : CurrentUser} {written fullName : String} {seat : ChainSeat}
  {seats : EvaluationAccessUpsert}

/-! ## One cell -/

theorem hasName_iff {u : User} (hwritten : written ≠ "") :
    (u.fullName.filter (· ≠ "")).map strip = some written ↔ u.HasName written := by
  unfold User.HasName
  cases u.fullName with
  | none => exact Iff.rfl
  | some name =>
    by_cases hname : name = ""
    · subst hname
      simpa using hwritten
    · simp [hname]

theorem ne_empty_of_present (h : written ∉ absentWords) : written ≠ "" := by
  intro heq
  exact h (by rw [heq]; exact List.mem_cons_self)

theorem mem_namesakes {u : User} (hwritten : written ≠ "") :
    u ∈ namesakes db written ↔ u ∈ db.users ∧ u.isActive = true ∧ u.HasName written := by
  unfold namesakes
  rw [List.mem_filter, Bool.and_eq_true, decide_eq_true_eq, hasName_iff hwritten]
  exact Iff.rfl

/-- The accounts that the import finds are those that are meant. -/
theorem mem_matchingUsers_iff {u : User} (h : written ∉ absentWords) :
    u ∈ matchingUsers db written ↔ Means db written u := by
  have hmem : ∀ v, v ∈ namesakes db written ↔ v ∈ db.users ∧ v.isActive = true ∧ v.HasName written :=
    fun v => mem_namesakes (ne_empty_of_present h)
  unfold matchingUsers Means
  split
  · next hnone =>
    have hnobody : ∀ v ∈ db.users, v.isActive = true → ¬ v.HasName written := by
      intro v hv hactive hname
      have hin := (hmem v).mpr ⟨hv, hactive, hname⟩
      rw [hnone] at hin
      exact List.not_mem_nil hin
    rw [List.mem_filter, Bool.and_eq_true, decide_eq_true_eq]
    constructor
    · rintro ⟨hu, hactive, husername⟩
      exact ⟨hu, hactive, Or.inr ⟨hnobody, husername⟩⟩
    · rintro ⟨hu, hactive, hmeant⟩
      exact ⟨hu, hactive, (hmeant.resolve_left (hnobody u hu hactive)).2⟩
  · next hsome =>
    rw [hmem]
    refine and_congr_right fun _ => and_congr_right fun _ => ?_
    constructor
    · exact Or.inl
    · intro hmeant
      refine hmeant.resolve_right fun hlogin => hsome ?_
      apply List.eq_nil_iff_forall_not_mem.mpr
      intro v hv
      obtain ⟨hmemv, hactive, hname⟩ := (hmem v).mp hv
      exact hlogin.1 v hmemv hactive hname

theorem nodup_matchingUsers : (matchingUsers db written).Nodup := by
  have hrows : db.users.rows.Nodup := List.Nodup.of_map _ db.users.nodup
  unfold matchingUsers namesakes
  split
  · exact hrows.filter _
  · exact hrows.filter _

/-- A cell names an account exactly where the import finds that account alone. -/
theorem names_some_iff (h : written ∉ absentWords) {k : Nat} :
    Names db written (some k) ↔ ∃ u, u.id = k ∧ matchingUsers db written = [u] := by
  have hsingle : ∀ u, (∀ v, Means db written v ↔ v = u) ↔ matchingUsers db written = [u] := by
    intro u
    rw [← List.perm_singleton, List.perm_ext_iff_of_nodup nodup_matchingUsers (List.nodup_singleton u)]
    refine forall_congr' fun v => ?_
    rw [mem_matchingUsers_iff h, List.mem_singleton]
  unfold Names
  constructor
  · rintro ⟨_, u, hid, hmeant⟩
    exact ⟨u, hid, (hsingle u).mp hmeant⟩
  · rintro ⟨u, hid, hfound⟩
    exact ⟨h, u, hid, (hsingle u).mpr hfound⟩

/-- A seat that is named and may be taken is found, but for the person's own name. -/
theorem resolveSeat_of_names {userId : Option Nat} (h : Names db written userId)
    (hlive : isResolved db seat userId = true) (hother : written ∉ absentWords → written ≠ fullName) :
    resolveSeat db fullName written seat = .ok userId := by
  unfold resolveSeat
  cases userId with
  | none => exact if_pos h
  | some k =>
    have hpresent : written ∉ absentWords := h.1
    obtain ⟨u, hid, hfound⟩ := (names_some_iff hpresent).mp h
    rw [if_neg hpresent, if_neg (hother hpresent), hfound]
    have hu : u ∈ db.users := ((mem_matchingUsers_iff hpresent).mp (hfound ▸ List.mem_singleton_self u)).1
    have hget : db.users.get? k = some u := hid ▸ Table.get?_of_mem hu
    unfold isResolved at hlive
    rw [Option.all_some, hget, Option.any_some, Bool.and_eq_true] at hlive
    show (if mayActAt u.role (seatRole seat) = true then Except.ok (some u.id) else _) = _
    rw [if_pos hlive.2, hid]

theorem seatError_own (hpresent : written ∉ absentWords) :
    seatError (resolveSeat db written written seat) ≠ [] := by
  unfold resolveSeat
  rw [if_neg hpresent, if_pos rfl]
  exact List.cons_ne_nil _ _

/-! ## The chief executive of an empty cell -/

theorem namedChiefs_eq : (db.users.rows.filter fun u =>
    u.isActive && (u.fullName.filter (· ≠ "")).isSome && u.role = .ceo) = (chiefs db).filter User.hasAnyName := by
  unfold chiefs
  rw [List.filter_filter]
  apply List.filter_congr
  intro u _
  unfold User.hasAnyName
  cases u.isActive <;> cases (u.fullName.filter (· ≠ "")).isSome <;> simp

theorem soleCeo_eq_some {k : Nat} : soleCeo db = some k ↔ ((chiefs db).filter User.hasAnyName).map User.id = [k] := by
  unfold soleCeo
  rw [namedChiefs_eq]
  split
  · next u hu => simp [hu]
  · next hmany =>
    constructor
    · intro hnone
      cases hnone
    · intro hone
      obtain ⟨u, hu, -⟩ := List.map_eq_singleton_iff.mp hone
      exact absurd hu (hmany u)

/-- The only chief executive is taken exactly if the account has a name. -/
theorem soleCeo_of_only {k : Nat} (honly : (chiefs db).map User.id = [k]) :
    soleCeo db = some k ↔ ∀ u ∈ chiefs db, u.hasAnyName = true := by
  obtain ⟨c, hc, hid⟩ := List.map_eq_singleton_iff.mp honly
  rw [soleCeo_eq_some, hc, List.filter_singleton]
  cases hname : c.hasAnyName with
  | true => simp [hname, hid]
  | false => simp [hname]

/-- The only chief executive with a name is the only one, unless there are more without one. -/
theorem filled_iff : (∀ k, soleCeo db = some k → (chiefs db).map User.id = [k]) ↔
    (((chiefs db).filter User.hasAnyName).length = 1 → (chiefs db).length = 1) := by
  constructor
  · intro hfilled hone
    obtain ⟨u, hu⟩ := List.length_eq_one_iff.mp hone
    have hmap := hfilled u.id (soleCeo_eq_some.mpr (by rw [hu]; rfl))
    rw [← List.length_map (f := User.id), hmap]
    rfl
  · intro hlength k hk
    have hmap := soleCeo_eq_some.mp hk
    have hone : ((chiefs db).filter User.hasAnyName).length = 1 := by
      rw [← List.length_map (f := User.id), hmap]
      rfl
    have heq : (chiefs db).filter User.hasAnyName = chiefs db :=
      List.filter_sublist.eq_of_length (hone.trans (hlength hone).symm)
    rw [← heq]
    exact hmap

/-! ## The chain of a row -/

/-- What the form asks of the seats. -/
theorem formAccepts_ok {r : ImportRow} (h : FormAccepts db env user r seats) :
    (r.fields.isManager = true → seats.unitSupervisorUserId = none) ∧
      isResolved db .unitSupervisor seats.unitSupervisorUserId = true ∧
      isResolved db .deputy seats.deputyUserId = true ∧ isResolved db .ceo (some seats.ceoUserId) = true ∧
      ¬(seats.unitSupervisorUserId.isSome = true ∧ seats.unitSupervisorUserId = seats.deputyUserId) ∧
      seats.deputyUserId ≠ some seats.ceoUserId := by
  obtain ⟨db', h⟩ := h
  have hresolved : ∀ seat k, IsLive (insertPersonnel db r.fields r.status) seat k →
      isResolved db seat (some k) = true := by
    rintro seat k ⟨u, hget, hactive, hmay⟩
    exact Table.id_of_get? hget ▸ isResolved_of_mem (Table.mem_of_get? hget) hactive hmay
  have hseat : ∀ seat o x, ensureSeatIsLive (insertPersonnel db r.fields r.status) seat o = .ok x →
      isResolved db seat o = true := by
    intro seat o x hlive
    cases o with
    | none => rfl
    | some k => exact hresolved seat k (ensureSeatIsLive_ok hlive rfl)
  unfold upsertAccess at h
  simp only [bind_eq_ok, pure_eq_ok, require_eq_ok, ensure_eq_ok] at h
  obtain ⟨-, -, person, hperson, -, hmanager, _, hsupervisor, _, hdeputy, _, hceo, -, -, chain, hchain, -⟩ := h
  obtain ⟨hcs, hcd, hcc⟩ := ensureChainStagesAreNotRedundant_ok hchain
  have hflag : person.isManager = r.fields.isManager := by
    have hnew : newPersonnel r.fields r.status (db.personnel.seq + 1) = person := by
      have hself := Table.get?_insert_self db.personnel (newPersonnel r.fields r.status)
        (newPersonnel_id r.fields r.status)
      exact Option.some.inj (hself.symm.trans hperson)
    rw [← hnew]
    rfl
  refine ⟨?_, hseat _ _ _ hsupervisor, hseat _ _ _ hdeputy, hresolved _ _ (ensureActiveUserWithRole_ok hceo), ?_, ?_⟩
  · intro hflagged
    rw [← hflag] at hflagged
    cases hsup : seats.unitSupervisorUserId with
    | none => rfl
    | some k => exact absurd ⟨hflagged, by rw [hsup]; rfl⟩ hmanager
  · rintro ⟨hsome, heq⟩
    rw [← hcs] at hsome heq
    rw [← hcd] at heq
    rcases chain.supervisor_not_deputy with hnone | hnone | hne
    · rw [hnone] at hsome
      cases hsome
    · rw [heq, hnone] at hsome
      cases hsome
    · exact hne heq
  · rw [← hcd, ← hcc]
    exact chain.deputy_not_ceo

/-- The chain of a row has given seats exactly where the row has them and one below the chief executive is taken. -/
theorem chain_seats_iff {r : ImportRow}
    (htwice : ¬(seats.unitSupervisorUserId.isSome = true ∧ seats.unitSupervisorUserId = seats.deputyUserId))
    (hceo : seats.deputyUserId ≠ some seats.ceoUserId) :
    r.chain.map Chain.seats = some seats ↔
      r.unitSupervisorUserId = seats.unitSupervisorUserId ∧ r.deputyUserId = seats.deputyUserId ∧
        r.ceoUserId = some seats.ceoUserId ∧
        (seats.unitSupervisorUserId.isSome = true ∨ seats.deputyUserId.isSome = true) := by
  constructor
  · intro hmap
    obtain ⟨chain, hchain, rfl⟩ := Option.map_eq_some_iff.mp hmap
    unfold ImportRow.chain at hchain
    split at hchain
    · cases hchain
    · next ceoUserId hgiven =>
      split at hchain
      · next hbelow =>
        split at hchain
        · split at hchain
          · cases hchain
            rw [Bool.or_eq_true] at hbelow
            exact ⟨rfl, rfl, hgiven, hbelow⟩
          · cases hchain
        · cases hchain
      · cases hchain
  · rintro ⟨hs, hd, hc, hbelow⟩
    have hdistinct : seats.unitSupervisorUserId = none ∨ seats.deputyUserId = none ∨
        seats.unitSupervisorUserId ≠ seats.deputyUserId := by
      cases hsup : seats.unitSupervisorUserId with
      | none => exact Or.inl rfl
      | some k =>
        right
        right
        intro heq
        exact htwice ⟨by rw [hsup]; rfl, by rw [hsup]; exact heq⟩
    unfold ImportRow.chain
    rw [hc, hs, hd]
    dsimp only
    rw [if_pos (by rw [Bool.or_eq_true]; exact hbelow), dif_pos hdistinct, dif_pos hceo]
    rfl

/-- What the import makes of seats that the form takes, where no cell has the person's own name. -/
theorem resolveChain_of_named {isManager : Bool} {written : ChainSeat → String} (hnamed : SeatsNamed db written seats)
    (hmanager : isManager = true → seats.unitSupervisorUserId = none)
    (hsupervisor : isResolved db .unitSupervisor seats.unitSupervisorUserId = true)
    (hdeputy : isResolved db .deputy seats.deputyUserId = true)
    (hceo : isResolved db .ceo (some seats.ceoUserId) = true)
    (htwice : ¬(seats.unitSupervisorUserId.isSome = true ∧ seats.unitSupervisorUserId = seats.deputyUserId))
    (hdistinct : seats.deputyUserId ≠ some seats.ceoUserId)
    (hother : ∀ seat, written seat ∉ absentWords → written seat ≠ fullName) :
    ∃ ceoUserId, resolveChain db fullName isManager written =
        ⟨seats.unitSupervisorUserId, seats.deputyUserId, ceoUserId, []⟩ ∧
      (ceoUserId = some seats.ceoUserId ↔
        (written .ceo ∈ absentWords → ∀ u ∈ chiefs db, u.hasAnyName = true)) := by
  have hs := resolveSeat_of_names hnamed.supervisor hsupervisor (hother .unitSupervisor)
  have hd := resolveSeat_of_names hnamed.deputy hdeputy (hother .deputy)
  have hflag : (if isManager = true then none else seats.unitSupervisorUserId) = seats.unitSupervisorUserId := by
    split
    · next h => exact (hmanager h).symm
    · rfl
  have hfine : ∀ ceoUserId, (ceoUserId = some seats.ceoUserId ∨ ceoUserId = none) →
      redundancyError seats.unitSupervisorUserId seats.deputyUserId ceoUserId = [] := by
    intro ceoUserId hceoUserId
    unfold redundancyError
    rw [if_neg htwice, if_neg]
    rintro ⟨hsome, heq⟩
    rcases hceoUserId with rfl | rfl
    · exact hdistinct heq
    · rw [heq] at hsome
      cases hsome
  rcases hnamed.ceo with hcell | ⟨habsent, honly⟩
  · have hc := resolveSeat_of_names hcell hceo (hother .ceo)
    refine ⟨some seats.ceoUserId, ?_, fun _ habsent => absurd habsent hcell.1, fun _ => rfl⟩
    unfold resolveChain
    simp only [hs, hd, hc, foundUser, seatError, hflag, Option.some_or, hfine _ (Or.inl rfl)]
    rfl
  · have hc : resolveSeat db fullName (written .ceo) .ceo = .ok none := if_pos habsent
    have hsole : soleCeo db = some seats.ceoUserId ∨ soleCeo db = none := by
      cases hk : soleCeo db with
      | none => exact Or.inr rfl
      | some k =>
        left
        obtain ⟨c, hchiefs, hid⟩ := List.map_eq_singleton_iff.mp honly
        have hnames := soleCeo_eq_some.mp hk
        obtain ⟨c', hc', hid'⟩ := List.map_eq_singleton_iff.mp hnames
        have hmem : c' ∈ chiefs db := List.mem_of_mem_filter (hc' ▸ List.mem_singleton_self c')
        rw [hchiefs, List.mem_singleton] at hmem
        rw [← hid', hmem, hid]
    refine ⟨soleCeo db, ?_, ?_⟩
    · unfold resolveChain
      simp only [hs, hd, hc, foundUser, seatError, hflag, Option.none_or, hfine _ hsole]
      rfl
    · rw [soleCeo_of_only honly]
      exact ⟨fun hnames _ => hnames, fun hnames => hnames habsent⟩

/-- A row without errors of its chain has its person's name in no cell. -/
theorem resolveChain_other {isManager : Bool} {written : ChainSeat → String}
    (h : (resolveChain db fullName isManager written).errors = []) (seat : ChainSeat)
    (hpresent : written seat ∉ absentWords) : written seat ≠ fullName := by
  intro hown
  have hrefused : seatError (resolveSeat db fullName (written seat) seat) ≠ [] := by
    rw [← hown]
    exact seatError_own hpresent
  unfold resolveChain at h
  simp only [List.append_eq_nil_iff] at h
  obtain ⟨⟨⟨hsupervisor, hdeputy⟩, hceo⟩, -⟩ := h
  cases seat with
  | unitSupervisor => exact hrefused hsupervisor
  | deputy => exact hrefused hdeputy
  | ceo => exact hrefused hceo

theorem toImport_eq {row : CheckedRow} {r : ImportRow} (h : row.toImport = some r) :
    (r.fields.personnelCode = row.personnelCode ∧ r.fields.fullName = row.fullName ∧
      r.fields.jobTitle = row.jobTitle ∧ r.fields.orgUnit = row.orgUnit ∧ r.fields.isManager = row.isManager) ∧
      r.unitSupervisorUserId = row.unitSupervisorUserId ∧ r.deputyUserId = row.deputyUserId ∧
      r.ceoUserId = row.ceoUserId := by
  unfold CheckedRow.toImport at h
  split at h
  · cases h
    exact ⟨⟨rfl, rfl, rfl, rfl, rfl⟩, rfl, rfl, rfl⟩
  · cases h

/-- A row that names seats which the form takes is imported with them exactly where they carry over. -/
theorem carries_iff {sheet : List (List Cell)} {row : CheckedRow} {r : ImportRow}
    (hsupervisor : row.unitSupervisorUserId = (row.resolved db (writtenAt sheet)).unitSupervisorUserId)
    (hdeputy : row.deputyUserId = (row.resolved db (writtenAt sheet)).deputyUserId)
    (hceo : row.ceoUserId = (row.resolved db (writtenAt sheet)).ceoUserId) (himport : row.toImport = some r)
    (h : Seatable db env user sheet row seats) :
    row.errors = [] ∧ r.chain.map Chain.seats = some seats ↔
      CarriesOver db (writtenAt sheet row.rowNumber) row.fullName seats := by
  obtain ⟨r', himport', haccepts⟩ := h.accepted
  obtain rfl : r = r' := Option.some.inj (himport.symm.trans himport')
  obtain ⟨hmanager, hs, hd, hc, htwice, hdistinct⟩ := formAccepts_ok haccepts
  obtain ⟨⟨-, -, -, -, hflag⟩, hrs, hrd, hrc⟩ := toImport_eq himport
  rw [hflag] at hmanager
  have honly := h.only
  unfold CheckedRow.OnlyChain at honly
  rw [chain_seats_iff htwice hdistinct, hrs, hrd, hrc, hsupervisor, hdeputy, hceo, honly]
  unfold CheckedRow.resolved
  constructor
  · rintro ⟨hnone, -, -, htaken, hbelow⟩
    have hother := resolveChain_other hnone
    obtain ⟨ceoUserId, hresolved, hchief⟩ :=
      resolveChain_of_named h.named hmanager hs hd hc htwice hdistinct hother
    rw [hresolved] at htaken
    exact ⟨hbelow, hother, hchief.mp htaken⟩
  · rintro ⟨hbelow, hother, hnamed⟩
    obtain ⟨ceoUserId, hresolved, hchief⟩ :=
      resolveChain_of_named h.named hmanager hs hd hc htwice hdistinct hother
    rw [hresolved]
    exact ⟨rfl, rfl, rfl, hchief.mpr hnamed, hbelow⟩

/-- In an empty cell of the last column stands the only chief executive with a name. -/
theorem resolveChain_of_absent {isManager : Bool} {written : ChainSeat → String} (h : written .ceo ∈ absentWords) :
    (resolveChain db fullName isManager written).ceoUserId = soleCeo db := by
  have hc : resolveSeat db fullName (written .ceo) .ceo = .ok none := if_pos h
  unfold resolveChain
  simp only [hc, foundUser, Option.none_or]

/-! ## The import -/

variable {calendar : Calendar} {file : Option (List (List Cell))} {preview : ImportPreview}

theorem fitColumns_iff {row : CheckedRow} {r : ImportRow} (h : row.toImport = some r) :
    r.fields.fitColumns = true ↔ row.FitsColumns := by
  obtain ⟨⟨hcode, hname, htitle, hunit, -⟩, -⟩ := toImport_eq h
  unfold PersonnelFields.fitColumns CheckedRow.FitsColumns
  rw [hcode, hname, htitle, hunit]
  simp only [Bool.and_eq_true, decide_eq_true_eq, and_assoc]

/-- The database takes the rows exactly where their texts fit. -/
theorem commitImport_eq_ok (himports : ∀ row ∈ preview.valid, ∃ r, row.toImport = some r) :
    commitImport db env user preview = .ok db' ↔ (∀ row ∈ preview.valid, row.FitsColumns) ∧
      db' = ((acceptedRows preview.rows).foldl (importRow env user) db).log
        [directoryEvent env user "personnel_imported"] := by
  have hfits : ((acceptedRows preview.rows).all fun row => row.fields.fitColumns) = true ↔
      ∀ row ∈ preview.valid, row.FitsColumns := by
    rw [List.all_eq_true]
    constructor
    · intro hall row hrow
      obtain ⟨r, himport⟩ := himports row hrow
      exact (fitColumns_iff himport).mp (hall r (List.mem_filterMap.mpr ⟨row, hrow, himport⟩))
    · intro hall r hr
      obtain ⟨row, hrow, himport⟩ := List.mem_filterMap.mp hr
      exact (fitColumns_iff himport).mpr (hall row hrow)
  unfold commitImport
  simp only [bind_eq_ok, pure_eq_ok, ensure_eq_ok]
  rw [← hfits]
  constructor
  · rintro ⟨_, hall, heq⟩
    exact ⟨hall, heq.symm⟩
  · rintro ⟨hall, heq⟩
    exact ⟨(), hall, heq.symm⟩

/-- A chain is made of the seats of a row exactly where the row is inserted with them. -/
theorem givesChain_iff {header : List String} {body : List (List Cell)} {said : Nat → ChainSeat → String}
    (hrows : parseRows calendar db header ⟨[], []⟩ 2 body = .ok preview.rows) (hsaid : Says header said 2 body)
    {row : CheckedRow} (hrow : row ∈ preview.rows) (honly : row.OnlyChain db said) {r : ImportRow}
    (himport : row.toImport = some r) :
    GivesChain db ((acceptedRows preview.rows).foldl (importRow env user) db) row.personnelCode seats ↔
      row.errors = [] ∧ r.chain.map Chain.seats = some seats := by
  rw [importRows_chain_iff]
  constructor
  · rintro ⟨r', hr', hcode, hseats⟩
    obtain ⟨row', hvalid, himport'⟩ := List.mem_filterMap.mp hr'
    obtain ⟨hrow', hok⟩ := List.mem_filter.mp hvalid
    have hnone : row'.errors = [] := of_decide_eq_true hok
    have honly' := (parseRows_resolved hrows hsaid hrow').2.2.2.1 hnone
    have hsame : row.personnelCode = row'.personnelCode := hcode.symm.trans (toImport_eq himport').1.1
    obtain rfl := eq_of_code_eq hrows hsaid hrow honly hrow' honly' hsame
    obtain rfl : r = r' := Option.some.inj (himport.symm.trans himport')
    exact ⟨hnone, hseats⟩
  · rintro ⟨hnone, hseats⟩
    have hvalid : row ∈ preview.rows.filter CheckedRow.isOk :=
      List.mem_filter.mpr ⟨hrow, decide_eq_true hnone⟩
    exact ⟨r, List.mem_filterMap.mpr ⟨row, hvalid, himport⟩, (toImport_eq himport).1.1, hseats⟩

/-- The import keeps its promise exactly where the texts of the valid rows fit, where the seats that the form takes
carry over, and where no chief executive without a name is passed over for an empty cell. -/
theorem import_chains_iff (hpreview : parseWorkbook calendar db file = .ok preview) :
    ImportsChains db env user (file.getD []) preview ↔
      (∀ row ∈ preview.valid, row.FitsColumns) ∧
        (∀ row ∈ preview.rows, ∀ seats, Seatable db env user (file.getD []) row seats →
          CarriesOver db (writtenAt (file.getD []) row.rowNumber) row.fullName seats) ∧
        ∀ row ∈ preview.rows, writtenAt (file.getD []) row.rowNumber .ceo ∈ absentWords →
          ((chiefs db).filter User.hasAnyName).length = 1 → (chiefs db).length = 1 := by
  obtain ⟨header, body, hrows, hsaid⟩ := parseWorkbook_rows hpreview
  have himports : ∀ row ∈ preview.valid, ∃ r, row.toImport = some r := by
    intro row hvalid
    obtain ⟨hrow, hok⟩ := List.mem_filter.mp hvalid
    obtain ⟨-, -, -, honly, himport⟩ := parseRows_resolved hrows hsaid hrow
    exact (himport (honly (of_decide_eq_true hok))).2
  have hseats : ∀ row ∈ preview.rows, ∀ seats, Seatable db env user (file.getD []) row seats →
      (GivesChain db ((acceptedRows preview.rows).foldl (importRow env user) db) row.personnelCode seats ↔
        CarriesOver db (writtenAt (file.getD []) row.rowNumber) row.fullName seats) := by
    intro row hrow seats hseatable
    obtain ⟨hs, hd, hc, -, -⟩ := parseRows_resolved hrows hsaid hrow
    obtain ⟨r, himport, -⟩ := hseatable.accepted
    rw [givesChain_iff hrows hsaid hrow hseatable.only himport, carries_iff hs hd hc himport hseatable]
  have hceo : ∀ row ∈ preview.rows, writtenAt (file.getD []) row.rowNumber .ceo ∈ absentWords →
      row.ceoUserId = soleCeo db := by
    intro row hrow habsent
    rw [(parseRows_resolved hrows hsaid hrow).2.2.1]
    exact resolveChain_of_absent habsent
  constructor
  · rintro ⟨⟨db', hcommit, -, -, hgives⟩, hfilled⟩
    obtain ⟨hfits, rfl⟩ := (commitImport_eq_ok himports).mp hcommit
    refine ⟨hfits, ?_, ?_⟩
    · intro row hrow seats hseatable
      exact (hseats row hrow seats hseatable).mp (hgives row hrow seats hseatable)
    · intro row hrow habsent
      refine filled_iff.mp fun k hk => hfilled row hrow habsent k ?_
      rw [hceo row hrow habsent, hk]
  · rintro ⟨hfits, hcarries, hchiefs⟩
    constructor
    case commits =>
      refine ⟨_, (commitImport_eq_ok himports).mpr ⟨hfits, rfl⟩, ?_, ?_, ?_⟩
      · intro hkeys
        obtain ⟨hcodes, husernames⟩ := acceptedRows_distinct hrows
        obtain ⟨hcodes, husernames⟩ :=
          @importRows_keys _ env user _ _ hkeys (fun r hr => mem_acceptedRows hrows hr) hcodes husernames
        exact ⟨hcodes, husernames⟩
      · intro row hvalid
        obtain ⟨r, himport⟩ := himports row hvalid
        obtain ⟨id, hadded⟩ := @importRows_adds db env user _ _ (List.mem_filterMap.mpr ⟨row, hvalid, himport⟩)
        exact ⟨r, id, himport, hadded⟩
      · intro row hrow seats hseatable
        exact (hseats row hrow seats hseatable).mpr (hcarries row hrow seats hseatable)
    case filled =>
      intro row hrow habsent k hk
      rw [hceo row hrow habsent] at hk
      exact filled_iff.mpr (hchiefs row hrow habsent) k hk

end

/-! ## A newcomer in a file -/

def newcomerSheet (supervisor chief : String) : List (List Cell) :=
  [(requiredColumns ++ [chainColumn .unitSupervisor, chainColumn .ceo]).map Cell.text,
    [.text "N", .text "N", .text "J", .text "U", .moment 0 0 "d", .moment 1 0 "d", .text supervisor, .text chief]]

def newcomerPreview (supervisor chief : String) : ImportPreview :=
  match parseWorkbook noCalendar (office fullChain) (some (newcomerSheet supervisor chief)) with
  | .ok preview => preview
  | .error _ => ⟨[], []⟩

theorem newcomerPreview_eq {supervisor chief : String}
    (h : (parseWorkbook noCalendar (office fullChain) (some (newcomerSheet supervisor chief))).isOk = true) :
    parseWorkbook noCalendar (office fullChain) (some (newcomerSheet supervisor chief)) =
      .ok (newcomerPreview supervisor chief) := by
  unfold newcomerPreview
  cases hparse : parseWorkbook noCalendar (office fullChain) (some (newcomerSheet supervisor chief)) with
  | ok preview => rfl
  | error e =>
    rw [hparse] at h
    cases h

/-- A newcomer with a supervisor gets the chain that the file names. -/
theorem newcomer_gets_chain :
    ((newcomerPreview "supervisor" "ceo").valid.map CheckedRow.personnelCode = ["N"]) ∧
      ImportsChains (office fullChain) someDay ⟨4, "hr", .hr, none⟩ (newcomerSheet "supervisor" "ceo")
        (newcomerPreview "supervisor" "ceo") := by
  refine ⟨by decide +kernel, (import_chains_iff (newcomerPreview_eq (by decide))).mpr ⟨?_, ?_, ?_⟩⟩
  · decide +kernel
  · have hrow : ∀ row ∈ (newcomerPreview "supervisor" "ceo").rows, row.rowNumber = 2 ∧ row.fullName = "N" := by
      decide +kernel
    intro row hmem seats hseatable
    obtain ⟨hnumber, hname⟩ := hrow row hmem
    rw [hnumber, hname]
    have hnamed := hseatable.named
    rw [hnumber] at hnamed
    refine ⟨?_, ?_, ?_⟩
    · cases hsup : seats.unitSupervisorUserId with
      | none =>
        have habsent := hnamed.supervisor
        rw [hsup, names_none] at habsent
        exact absurd habsent (by decide)
      | some k => exact Or.inl rfl
    · intro seat
      cases seat with
      | unitSupervisor => decide
      | deputy => decide
      | ceo => decide
    · intro habsent
      exact absurd habsent (by decide)
  · decide +kernel

/-- The form takes a chain of the chief executive alone, and the import makes none. -/
theorem ceo_alone_is_lost :
    ¬∀ calendar db env user file preview, parseWorkbook calendar db file = .ok preview →
      ImportsChains db env user (file.getD []) preview := by
  intro hclaim
  have hparse := @newcomerPreview_eq "" "ceo" (by decide)
  obtain ⟨⟨db', hcommit, -, -, hgives⟩, -⟩ :=
    hclaim noCalendar (office fullChain) someDay ⟨4, "hr", .hr, none⟩ _ _ hparse
  obtain ⟨row, hrow, honly, hnumber, himport⟩ : ∃ row ∈ (newcomerPreview "" "ceo").rows,
      row.errors = (row.resolved (office fullChain) (writtenAt (newcomerSheet "" "ceo"))).errors ∧
        row.rowNumber = 2 ∧ row.toImport.any (fun r => (upsertAccess
          (insertPersonnel (office fullChain) r.fields r.status) someDay ⟨4, "hr", .hr, none⟩ 2 ⟨none, none, 3⟩).isOk) =
          true := by
    decide +kernel
  obtain ⟨r, himport, haccepts⟩ := exists_of_any himport
  have hceo : Names (office fullChain) "ceo" (some 3) :=
    (names_some_iff (by decide)).mpr ⟨account 3 "ceo" .ceo, rfl, by decide⟩
  have hseatable : Seatable (office fullChain) someDay ⟨4, "hr", .hr, none⟩ (newcomerSheet "" "ceo") row
      ⟨none, none, 3⟩ := by
    refine ⟨honly, ?_, r, himport, ?_⟩
    · rw [hnumber]
      exact ⟨names_none.mpr (by decide), names_none.mpr (by decide), Or.inl hceo⟩
    · unfold FormAccepts
      cases hform : upsertAccess (insertPersonnel (office fullChain) r.fields r.status) someDay ⟨4, "hr", .hr, none⟩ 2
          ⟨none, none, 3⟩ with
      | ok db' => exact ⟨db', hform⟩
      | error e =>
        rw [hform] at haccepts
        cases haccepts
  obtain ⟨person, -, -, access, haccess, hnew, -⟩ := hgives row hrow _ hseatable
  have hsame : (commitImport (office fullChain) someDay ⟨4, "hr", .hr, none⟩ (newcomerPreview "" "ceo")).toOption.map
      (fun d => d.evaluationAccess.rows) = some (office fullChain).evaluationAccess.rows := by
    decide +kernel
  rw [hcommit] at hsame
  have hrows : db'.evaluationAccess.rows = (office fullChain).evaluationAccess.rows := Option.some.inj hsame
  rw [Table.mem_def, hrows] at haccess
  exact hnew haccess

end NexaHR
