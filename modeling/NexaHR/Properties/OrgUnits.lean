import NexaHR.System.Installation
import NexaHR.System.PersonnelWrites

/-! # The catalogue of units

A unit and its people are linked by a text only: the people hold the full name of their unit, and the full name
is composed of a site and a name. The composition forgets where the one ends and the other begins, people
type other separators than the composed one, and the constraint on units lets a unit without a site be there twice.

* `CatalogueLaw`: full names are distinct, and a text names an HR unit exactly when it splits into its parts.
* `Operation.CarefulWithUnits`: what a request has to leave alone to keep it.
* `catalogueStep_iff`: the step, with one case for each request that writes units or people.
* `catalogue_iff`: the runs.
-/

namespace NexaHR

open Foundations

set_option autoImplicit false

/-! ## Texts and units -/

def OrgUnit.parts (unit : OrgUnit) : Option String × String := (unit.site, unit.name)

/-- Naming the unit and splitting into its parts are one thing for the text. -/
def NamesAsSplit (text : String) (unit : OrgUnit) : Prop := text = unit.fullName ↔ splitSite text = unit.parts

instance (text : String) (unit : OrgUnit) : Decidable (NamesAsSplit text unit) :=
  inferInstanceAs (Decidable (text = unit.fullName ↔ splitSite text = unit.parts))

/-- The text is no name that splits otherwise than its unit, and no other spelling of a unit's name. -/
structure IsClear (text : String) (unit : OrgUnit) : Prop where
  readsBack : text = unit.fullName → splitSite unit.fullName = unit.parts
  spelling : splitSite text = unit.parts → IsCanonical text

theorem isClear_iff {text : String} {unit : OrgUnit} : IsClear text unit ↔ NamesAsSplit text unit := by
  have hjoin : splitSite text = unit.parts → joinSite (splitSite text).1 (splitSite text).2 = unit.fullName := by
    intro hsplit
    rw [hsplit]
    rfl
  constructor
  · intro h
    constructor
    · intro hname
      rw [hname]
      exact h.readsBack hname
    · intro hsplit
      exact (h.spelling hsplit).symm.trans (hjoin hsplit)
  · intro h
    refine ⟨fun hname => ?_, fun hsplit => ?_⟩
    · rw [← hname]
      exact h.mp hname
    · exact (hjoin hsplit).trans (h.mpr hsplit).symm

/-! ## The law -/

structure CatalogueLaw (db : Database) : Prop where
  distinct : ∀ unit ∈ db.orgUnits, ∀ other ∈ db.orgUnits, unit.fullName = other.fullName → unit = other
  members : ∀ person ∈ db.personnel, ∀ unit ∈ db.orgUnits, unit.isHrUnit = true →
    NamesAsSplit person.orgUnit unit

/-- The law is about two tables. -/
theorem catalogueLaw_congr {db db' : Database} (hunits : db'.orgUnits = db.orgUnits)
    (hpeople : db'.personnel = db.personnel) : CatalogueLaw db' ↔ CatalogueLaw db := by
  constructor
  · intro h
    exact ⟨hunits ▸ h.distinct, hunits ▸ hpeople ▸ h.members⟩
  · intro h
    refine ⟨?_, ?_⟩
    · rw [hunits]
      exact h.distinct
    · rw [hunits, hpeople]
      exact h.members

/-- A renaming changes the unit of exactly the people whose text splits into its parts, to its new name. -/
def RenamesMembers (x : Taken Database Request) : Prop :=
  ∀ unitId p unit, x.label.operation = .updateOrgUnit unitId p → x.before.orgUnits.get? unitId = some unit →
    (unit.updated p).fullName ≠ unit.fullName → ∀ k person, x.before.personnel.get? k = some person →
      ∃ orgUnit, x.after.personnel.get? k = some { person with orgUnit := orgUnit } ∧
        (orgUnit = person.orgUnit ∨ orgUnit = (unit.updated p).fullName) ∧
        (orgUnit ≠ person.orgUnit ↔ splitSite person.orgUnit = unit.parts)

/-! ## What a request has to leave alone -/

/-- The text is clear of every HR unit. -/
def ClearOfHr (db : Database) (text : String) : Prop :=
  ∀ unit ∈ db.orgUnits, unit.isHrUnit = true → IsClear text unit

/-- A unit may become `updated`: no other unit has its new full name, whoever is renamed or left is clear of the
unit, and the new name is clear of the HR units that its people find there. -/
structure MayBecome (db : Database) (unit updated : OrgUnit) : Prop where
  free : ∀ other ∈ db.orgUnits, other.id ≠ unit.id → other.fullName ≠ updated.fullName
  renamed : updated.fullName ≠ unit.fullName → ∀ person ∈ db.personnel, IsClear person.orgUnit unit
  left : updated.isHrUnit = true → ∀ person ∈ db.personnel, person.orgUnit ≠ unit.fullName →
    IsClear person.orgUnit updated
  moved : (∃ person ∈ db.personnel, person.orgUnit = unit.fullName) →
    (updated.isHrUnit = true → IsClear updated.fullName updated) ∧
      ∀ other ∈ db.orgUnits, other.id ≠ unit.id → other.isHrUnit = true → IsClear updated.fullName other

def Operation.CarefulWithUnits (db : Database) : Operation → Prop
  | createOrgUnit site name =>
    ∀ unit ∈ db.orgUnits, unit.fullName ≠ joinSite (givenSite site) (givenUnitName name)
  | updateOrgUnit unitId p => ∀ unit, db.orgUnits.get? unitId = some unit → MayBecome db unit (unit.updated p)
  | createPersonnel p _ => ClearOfHr db p.orgUnit
  | importPersonnel rows => ∀ row ∈ validRows db [] rows, ClearOfHr db row.fields.orgUnit
  | updatePersonnel _ p => ∀ text, p.orgUnit = some text → ClearOfHr db text
  | _ => True

section

variable {db db' : Database} {env : Env} {user : CurrentUser}

/-! ## Units -/

theorem insertOrgUnit_law_iff {site : Option String} {name : String} (hlaw : CatalogueLaw db) :
    CatalogueLaw (insertOrgUnit db site name) ↔ ∀ unit ∈ db.orgUnits, unit.fullName ≠ joinSite site name := by
  obtain ⟨new, hname, hhr, hid, hunits⟩ : ∃ new : OrgUnit, new.fullName = joinSite site name ∧
      new.isHrUnit = false ∧ new.id = db.orgUnits.seq + 1 ∧
      ∀ unit, unit ∈ (insertOrgUnit db site name).orgUnits ↔ unit ∈ db.orgUnits ∨ unit = new :=
    ⟨⟨db.orgUnits.seq + 1, site, name, true, false⟩, rfl, rfl, rfl, fun unit => Table.mem_insert _⟩
  rw [← hname]
  constructor
  · intro hafter unit hunit heq
    have hsame : unit = new :=
      hafter.distinct unit ((hunits unit).mpr (Or.inl hunit)) new ((hunits new).mpr (Or.inr rfl)) heq
    have hold : unit.id ≤ db.orgUnits.seq := Table.le_seq_of_get? (Table.get?_of_mem hunit)
    rw [hsame] at hold
    omega
  · intro hfree
    refine ⟨?_, ?_⟩
    · intro unit hunit other hother heq
      rcases (hunits unit).mp hunit with hold | hnew
      · rcases (hunits other).mp hother with hold' | hnew'
        · exact hlaw.distinct unit hold other hold' heq
        · rw [hnew'] at heq
          exact absurd heq (hfree unit hold)
      · rcases (hunits other).mp hother with hold' | hnew'
        · rw [hnew] at heq
          exact absurd heq.symm (hfree other hold')
        · exact hnew.trans hnew'.symm
    · intro person hperson unit hunit hflag
      rcases (hunits unit).mp hunit with hold | hnew
      · exact hlaw.members person hperson unit hold hflag
      · rw [hnew, hhr] at hflag
        cases hflag

theorem deleteOrgUnit_law {unitId : Nat} (h : deleteOrgUnit db env user unitId = .ok db')
    (hlaw : CatalogueLaw db) : CatalogueLaw db' := by
  obtain ⟨gone, -, -, entries, rfl⟩ := deleteOrgUnit_ok h
  have hstayed : ∀ unit, unit ∈ db.orgUnits.filter (fun other => other.id ≠ gone.id) → unit ∈ db.orgUnits :=
    fun unit hunit => (Table.mem_filter.mp hunit).1
  refine ⟨?_, ?_⟩
  · intro unit hunit other hother hname
    exact hlaw.distinct unit (hstayed unit hunit) other (hstayed other hother) hname
  · intro person hperson unit hunit hhr
    exact hlaw.members person hperson unit (hstayed unit hunit) hhr

/-! ## A unit that becomes another -/

section

variable {unit updated : OrgUnit}

theorem mem_renamedUnits (hmem : unit ∈ db.orgUnits) (hid : updated.id = unit.id) {other : OrgUnit} :
    other ∈ (renameOrgUnit db unit updated).orgUnits ↔
      other = updated ∨ other ∈ db.orgUnits ∧ other.id ≠ unit.id := by
  constructor
  · intro h
    rcases Table.mem_put h with ⟨hold, hne⟩ | rfl
    · exact Or.inr ⟨hold, fun heq => hne (heq.trans hid.symm)⟩
    · exact Or.inl rfl
  · rintro (rfl | ⟨hold, hne⟩)
    · exact Table.mem_put_self hmem hid.symm
    · refine Table.mem_of_get? (k := other.id) ?_
      show (db.orgUnits.put updated).get? other.id = some other
      rw [Table.get?_put_ne fun heq => hne (heq.trans hid)]
      exact Table.get?_of_mem hold

theorem renamed_distinct_iff (hlaw : CatalogueLaw db) (hmem : unit ∈ db.orgUnits) (hid : updated.id = unit.id) :
    (∀ one ∈ (renameOrgUnit db unit updated).orgUnits, ∀ other ∈ (renameOrgUnit db unit updated).orgUnits,
        one.fullName = other.fullName → one = other) ↔
      ∀ other ∈ db.orgUnits, other.id ≠ unit.id → other.fullName ≠ updated.fullName := by
  simp only [mem_renamedUnits hmem hid]
  constructor
  · intro hdistinct other hother hne hname
    have hsame := hdistinct other (Or.inr ⟨hother, hne⟩) updated (Or.inl rfl) hname
    rw [hsame] at hne
    exact hne hid
  · intro hfree one hone other hother hname
    rcases hone with rfl | ⟨hone, hone'⟩
    · rcases hother with rfl | ⟨hother, hother'⟩
      · rfl
      · exact absurd hname.symm (hfree other hother hother')
    · rcases hother with rfl | ⟨hother, -⟩
      · exact absurd hname (hfree one hone hone')
      · exact hlaw.distinct one hone other hother hname

theorem renamed_members_iff (hlaw : CatalogueLaw db) (hmem : unit ∈ db.orgUnits) (hid : updated.id = unit.id) :
    (∀ person ∈ (renameOrgUnit db unit updated).personnel,
        ∀ other ∈ (renameOrgUnit db unit updated).orgUnits, other.isHrUnit = true →
          NamesAsSplit person.orgUnit other) ↔
      (updated.isHrUnit = true → ∀ person ∈ db.personnel, person.orgUnit ≠ unit.fullName →
          IsClear person.orgUnit updated) ∧
        ((∃ person ∈ db.personnel, person.orgUnit = unit.fullName) →
          (updated.isHrUnit = true → IsClear updated.fullName updated) ∧
            ∀ other ∈ db.orgUnits, other.id ≠ unit.id → other.isHrUnit = true →
              IsClear updated.fullName other) := by
  simp only [mem_renameOrgUnit, mem_renamedUnits hmem hid, isClear_iff]
  constructor
  · intro hmembers
    refine ⟨?_, ?_⟩
    · intro hhr person hperson hother
      have hkept := hmembers _ ⟨person, hperson, rfl⟩ updated (Or.inl rfl) hhr
      rwa [moveUnit_other hother] at hkept
    · intro ⟨person, hperson, hin⟩
      have hmoved := hmembers _ ⟨person, hperson, rfl⟩
      rw [moveUnit_member hin] at hmoved
      exact ⟨hmoved updated (Or.inl rfl), fun other hother hne => hmoved other (Or.inr ⟨hother, hne⟩)⟩
  · rintro ⟨hleft, hmoved⟩ _ ⟨person, hperson, rfl⟩ other hother hhr
    by_cases hin : person.orgUnit = unit.fullName
    · rw [moveUnit_member hin]
      rcases hother with rfl | ⟨hother, hne⟩
      · exact (hmoved ⟨person, hperson, hin⟩).1 hhr
      · exact (hmoved ⟨person, hperson, hin⟩).2 other hother hne hhr
    · rw [moveUnit_other hin]
      rcases hother with rfl | ⟨hother, -⟩
      · exact hleft hhr person hperson hin
      · exact hlaw.members person hperson other hother hhr

/-- Where the full name changes, the people whose text changes are those who hold the old one. -/
theorem renamesMembers_iff {req : Request} {unitId : Nat} {p : OrgUnitUpdate} {entries : List AuditLog}
    (hop : req.operation = .updateOrgUnit unitId p) (hget : db.orgUnits.get? unitId = some unit) :
    RenamesMembers ⟨db, req, (renameOrgUnit db unit (unit.updated p)).log entries⟩ ↔
      ((unit.updated p).fullName ≠ unit.fullName → ∀ person ∈ db.personnel, IsClear person.orgUnit unit) := by
  simp only [isClear_iff]
  generalize hnew : (unit.updated p).fullName = new
  have hafter : ∀ k person, db.personnel.get? k = some person →
      ((renameOrgUnit db unit (unit.updated p)).log entries).personnel.get? k =
        some (moveUnit unit.fullName new person) := by
    intro k person hperson
    rw [← hnew]
    have hmap := Table.get?_map db.personnel _ (moveUnit_id unit.fullName (unit.updated p).fullName) k
    rw [hperson] at hmap
    exact hmap
  constructor
  · intro hrenames hchanges person hperson
    have hfound : db.personnel.get? person.id = some person := Table.get?_of_mem hperson
    obtain ⟨orgUnit, hget', -, hiff⟩ := hrenames unitId p unit hop hget (hnew ▸ hchanges) person.id person hfound
    rw [hafter person.id person hfound] at hget'
    have hunit : (moveUnit unit.fullName new person).orgUnit = orgUnit :=
      congrArg Personnel.orgUnit (Option.some.inj hget')
    by_cases hin : person.orgUnit = unit.fullName
    · rw [moveUnit_member hin] at hunit
      have hmoved : orgUnit ≠ person.orgUnit := by
        rw [← hunit, hin]
        exact hchanges
      exact iff_of_true hin (hiff.mp hmoved)
    · rw [moveUnit_other hin] at hunit
      exact iff_of_false hin fun hsplit => hiff.mpr hsplit hunit.symm
  · intro hclear unitId' p' unit' hop' hget' hchanges k person hperson
    obtain ⟨rfl, rfl⟩ := Operation.updateOrgUnit.inj (hop.symm.trans hop')
    obtain rfl : unit = unit' := Option.some.inj (hget.symm.trans hget')
    rw [hnew] at hchanges ⊢
    have hnames := hclear hchanges person (Table.mem_of_get? hperson)
    refine ⟨(moveUnit unit.fullName new person).orgUnit, ?_, ?_, ?_⟩
    · rw [hafter k person hperson, ← moveUnit_eq]
    · by_cases hin : person.orgUnit = unit.fullName
      · exact Or.inr (moveUnit_member hin)
      · rw [moveUnit_other hin]
        exact Or.inl rfl
    · by_cases hin : person.orgUnit = unit.fullName
      · rw [moveUnit_member hin, hin]
        exact iff_of_true hchanges (hin ▸ hnames.mp hin)
      · rw [moveUnit_other hin]
        exact iff_of_false (fun hne => hne rfl) fun hsplit => hin (hnames.mpr hsplit)

end

/-! ## People -/

/-- New people keep the law exactly when their texts are clear of the HR units. -/
theorem people_law_iff (hunits : db'.orgUnits = db.orgUnits) (hlaw : CatalogueLaw db) {texts : List String}
    (hold : ∀ person ∈ db'.personnel, (∃ old ∈ db.personnel, old.orgUnit = person.orgUnit) ∨ person.orgUnit ∈ texts)
    (hnew : ∀ text ∈ texts, ∃ person ∈ db'.personnel, person.orgUnit = text) :
    CatalogueLaw db' ↔ ∀ text ∈ texts, ClearOfHr db text := by
  constructor
  · intro hafter text htext unit hunit hhr
    obtain ⟨person, hperson, rfl⟩ := hnew text htext
    rw [← hunits] at hunit
    exact isClear_iff.mpr (hafter.members person hperson unit hunit hhr)
  · intro hclear
    refine ⟨?_, ?_⟩
    · rw [hunits]
      exact hlaw.distinct
    · intro person hperson unit hunit hhr
      rw [hunits] at hunit
      rcases hold person hperson with ⟨old, hmem, hsame⟩ | htext
      · rw [← hsame]
        exact hlaw.members old hmem unit hunit hhr
      · exact isClear_iff.mp (hclear _ htext unit hunit hhr)

theorem createPersonnel_law_iff {p : PersonnelFields} {username : Option String}
    (h : createPersonnel db env user p username = .ok db') (hlaw : CatalogueLaw db) :
    CatalogueLaw db' ↔ ClearOfHr db p.orgUnit := by
  have hkept : KeepsOthers (.createPersonnel p username) db db' := Operation.run_keepsOthers h
  obtain ⟨-, hpeople⟩ := createPersonnel_people h
  have hiff : CatalogueLaw db' ↔ ∀ text ∈ [p.orgUnit], ClearOfHr db text := by
    refine people_law_iff (hkept.orgUnits.resolve_left Bool.false_ne_true) hlaw ?_ ?_
    · intro person hperson
      rw [hpeople] at hperson
      rcases (Table.mem_insert _).mp hperson with hold | rfl
      · exact Or.inl ⟨person, hold, rfl⟩
      · exact Or.inr (List.mem_singleton.mpr rfl)
    · intro text htext
      rw [hpeople, List.mem_singleton.mp htext]
      exact ⟨_, (Table.mem_insert _).mpr (Or.inr rfl), rfl⟩
  rw [hiff]
  exact List.forall_mem_singleton

theorem importPersonnel_law_iff {rows : List ImportRow} (h : importPersonnel db env user rows = .ok db')
    (hlaw : CatalogueLaw db) :
    CatalogueLaw db' ↔ ∀ row ∈ validRows db [] rows, ClearOfHr db row.fields.orgUnit := by
  have hkept : KeepsOthers (.importPersonnel rows) db db' := Operation.run_keepsOthers h
  have hpeople : db'.personnel = ((validRows db [] rows).foldl (importRow env user) db).personnel := by
    unfold importPersonnel at h
    simp only [bind_eq_ok, pure_eq_ok] at h
    obtain ⟨-, -, -, -, rfl⟩ := h
    rfl
  have hiff : CatalogueLaw db' ↔
      ∀ text ∈ (validRows db [] rows).map fun row => row.fields.orgUnit, ClearOfHr db text := by
    refine people_law_iff (hkept.orgUnits.resolve_left Bool.false_ne_true) hlaw ?_ ?_
    · intro person hperson
      rw [hpeople] at hperson
      rcases mem_importRows_people hperson with hold | ⟨row, hrow, id, rfl⟩
      · exact Or.inl ⟨person, hold, rfl⟩
      · exact Or.inr (List.mem_map.mpr ⟨row, hrow, rfl⟩)
    · intro text htext
      obtain ⟨row, hrow, rfl⟩ := List.mem_map.mp htext
      obtain ⟨id, hmem⟩ : ∃ id, newPersonnel row.fields row.status id ∈
          ((validRows db [] rows).foldl (importRow env user) db).personnel := importRows_adds hrow
      rw [hpeople]
      exact ⟨_, hmem, rfl⟩
  rw [hiff]
  exact List.forall_mem_map

theorem updatePersonnel_law_iff {personnelId : Nat} {p : PersonnelUpdate}
    (h : updatePersonnel db env user personnelId p = .ok db') (hlaw : CatalogueLaw db) :
    CatalogueLaw db' ↔ ∀ text, p.orgUnit = some text → ClearOfHr db text := by
  have hkept : KeepsOthers (.updatePersonnel personnelId p) db db' := Operation.run_keepsOthers h
  obtain ⟨person, hget, -, -, hpeople⟩ := updatePersonnel_people h
  have hmem := Table.mem_of_get? hget
  have hiff : CatalogueLaw db' ↔ ∀ text ∈ p.orgUnit.toList, ClearOfHr db text := by
    refine people_law_iff (hkept.orgUnits.resolve_left Bool.false_ne_true) hlaw ?_ ?_
    · intro other hother
      rw [hpeople] at hother
      rcases Table.mem_put hother with ⟨hold, -⟩ | rfl
      · exact Or.inl ⟨other, hold, rfl⟩
      · cases hgiven : p.orgUnit with
        | none =>
          refine Or.inl ⟨person, hmem, ?_⟩
          show person.orgUnit = p.orgUnit.getD person.orgUnit
          rw [hgiven]
          rfl
        | some text =>
          refine Or.inr (List.mem_singleton.mpr ?_)
          show p.orgUnit.getD person.orgUnit = text
          rw [hgiven]
          rfl
    · intro text htext
      rw [hpeople]
      refine ⟨person.updated env p, Table.mem_put_self hmem rfl, ?_⟩
      show p.orgUnit.getD person.orgUnit = text
      rw [Option.mem_toList.mp htext]
      rfl
  rw [hiff]
  simp only [Option.mem_toList]

/-! ## The step -/

/-- What a step is to keep: the law, and the renaming of exactly the members. -/
structure KeepsCatalogue (x : Taken Database Request) : Prop where
  law : CatalogueLaw x.after
  renames : RenamesMembers x

theorem renamesMembers_of_other {x : Taken Database Request}
    (h : ∀ unitId p, x.label.operation ≠ .updateOrgUnit unitId p) : RenamesMembers x :=
  fun unitId p _ hop => absurd hop (h unitId p)

theorem keepsCatalogue_iff_law {x : Taken Database Request}
    (h : ∀ unitId p, x.label.operation ≠ .updateOrgUnit unitId p) :
    KeepsCatalogue x ↔ CatalogueLaw x.after :=
  ⟨fun hkeeps => hkeeps.law, fun hlaw => ⟨hlaw, renamesMembers_of_other h⟩⟩

theorem updateOrgUnit_catalogue_iff {req : Request} {unitId : Nat} {p : OrgUnitUpdate}
    (hop : req.operation = .updateOrgUnit unitId p) (h : updateOrgUnit db env user unitId p = .ok db')
    (hlaw : CatalogueLaw db) :
    KeepsCatalogue ⟨db, req, db'⟩ ↔
      ∀ unit, db.orgUnits.get? unitId = some unit → MayBecome db unit (unit.updated p) := by
  obtain ⟨unit, hget, -, -, entries, rfl⟩ := updateOrgUnit_ok h
  have hmem := Table.mem_of_get? hget
  have hdistinct := @renamed_distinct_iff db unit (unit.updated p) hlaw hmem rfl
  have hmembers := @renamed_members_iff db unit (unit.updated p) hlaw hmem rfl
  have hrenames := @renamesMembers_iff db unit req unitId p entries hop hget
  constructor
  · intro hkeeps unit' hget'
    obtain rfl : unit = unit' := Option.some.inj (hget.symm.trans hget')
    have hpeople := hmembers.mp hkeeps.law.members
    exact ⟨hdistinct.mp hkeeps.law.distinct, hrenames.mp hkeeps.renames, hpeople.1, hpeople.2⟩
  · intro hmay
    obtain ⟨hfree, hrenamed, hleft, hmoved⟩ := hmay unit hget
    exact ⟨⟨hdistinct.mpr hfree, hmembers.mpr ⟨hleft, hmoved⟩⟩, hrenames.mpr hrenamed⟩

/-- A request keeps the catalogue exactly when it is careful with the units. -/
theorem catalogueStep_iff {req : Request} (h : Steps db req db') (hlaw : CatalogueLaw db) :
    KeepsCatalogue ⟨db, req, db'⟩ ↔ req.operation.CarefulWithUnits db := by
  unfold Steps step at h
  rw [bind_eq_ok] at h
  obtain ⟨user, -, hrun⟩ := h
  have hkept := Operation.run_keepsOthers hrun
  cases hop : req.operation with
  | updateOrgUnit unitId p =>
    rw [hop] at hrun
    exact updateOrgUnit_catalogue_iff hop hrun hlaw
  | createOrgUnit site name =>
    rw [hop] at hrun
    rw [keepsCatalogue_iff_law (by simp [hop])]
    obtain ⟨-, entries, rfl⟩ := createOrgUnit_ok hrun
    have hlog : CatalogueLaw ((insertOrgUnit db (givenSite site) (givenUnitName name)).log entries) ↔
        CatalogueLaw (insertOrgUnit db (givenSite site) (givenUnitName name)) := catalogueLaw_congr rfl rfl
    exact hlog.trans (insertOrgUnit_law_iff hlaw)
  | deleteOrgUnit unitId =>
    rw [hop] at hrun
    rw [keepsCatalogue_iff_law (by simp [hop])]
    exact iff_of_true (deleteOrgUnit_law hrun hlaw) trivial
  | createPersonnel payload username =>
    rw [hop] at hrun
    rw [keepsCatalogue_iff_law (by simp [hop])]
    exact createPersonnel_law_iff hrun hlaw
  | importPersonnel rows =>
    rw [hop] at hrun
    rw [keepsCatalogue_iff_law (by simp [hop])]
    exact importPersonnel_law_iff hrun hlaw
  | updatePersonnel personnelId payload =>
    rw [hop] at hrun
    rw [keepsCatalogue_iff_law (by simp [hop])]
    exact updatePersonnel_law_iff hrun hlaw
  | _ =>
    rw [hop] at hkept
    rw [keepsCatalogue_iff_law (by simp [hop])]
    refine iff_of_true ?_ trivial
    exact (catalogueLaw_congr (hkept.orgUnits.resolve_left Bool.false_ne_true)
      (hkept.personnel.resolve_left Bool.false_ne_true)).mpr hlaw

/-! ## The runs -/

/-- A run of any requests, from a catalogue that keeps the law; an empty one does. -/
abbrev CatalogueRun (tr : List (Taken Database Request)) (db : Database) : Prop := Run CatalogueLaw Steps tr db

/-- The person works in a unit that is marked as the HR unit, in whichever spelling. -/
def BelongsToHrUnit (db : Database) (person : Personnel) : Prop :=
  ∃ unit ∈ db.orgUnits, unit.isHrUnit = true ∧ splitSite person.orgUnit = (unit.site, unit.name)

theorem CatalogueLaw.membership (hlaw : CatalogueLaw db) {person : Personnel} (hperson : person ∈ db.personnel) :
    subjectBelongsToHr db person.id = true ↔ BelongsToHrUnit db person := by
  have hget : db.personnel.get? person.id = some person := Table.get?_of_mem hperson
  rw [subjectBelongsToHr_eq_true]
  constructor
  · intro ⟨other, hother, unit, hunit, hhr, hname⟩
    obtain rfl : person = other := Option.some.inj (hget.symm.trans hother)
    exact ⟨unit, hunit, hhr, (hlaw.members person hperson unit hunit hhr).mp hname⟩
  · intro ⟨unit, hunit, hhr, hsplit⟩
    exact ⟨person, hget, unit, hunit, hhr, (hlaw.members person hperson unit hunit hhr).mpr hsplit⟩

/-- The catalogue of a state: full names are distinct, and the HR people are those whose text splits into the site
and the name of an HR unit. -/
structure CatalogueHolds (db : Database) : Prop where
  distinct : ∀ unit ∈ db.orgUnits, ∀ other ∈ db.orgUnits, unit ≠ other → unit.fullName ≠ other.fullName
  members : ∀ personnelIds, ∀ person ∈ db.personnel,
    person.id ∈ hrUnitPersonnelIds db personnelIds ↔ person.id ∈ personnelIds ∧ BelongsToHrUnit db person

theorem CatalogueLaw.holds (hlaw : CatalogueLaw db) : CatalogueHolds db where
  distinct := fun unit hunit other hother hne hname => hne (hlaw.distinct unit hunit other hother hname)
  members := by
    intro personnelIds person hperson
    rw [mem_hrUnitPersonnelIds, hlaw.membership hperson]

/-- A record that a step opens skips the review of HR exactly when its subject works there. -/
def OpensByUnit (x : Taken Database Request) : Prop :=
  ∀ k r, x.before.evaluationRecords.get? k = none → x.after.evaluationRecords.get? k = some r →
    (r.hrReviewSkipped = true ↔
      ∃ person, x.before.personnel.get? r.subjectPersonnelId = some person ∧ BelongsToHrUnit x.before person)

theorem opensByUnit {x : Taken Database Request} (h : Steps x.before x.label x.after)
    (hlaw : CatalogueLaw x.before) : OpensByUnit x := by
  intro k r hnone hget
  obtain ⟨access, -, -, -, code, rfl⟩ := step_opened h hnone hget
  show subjectBelongsToHr x.before access.personnelId = true ↔
    ∃ person, x.before.personnel.get? access.personnelId = some person ∧ BelongsToHrUnit x.before person
  constructor
  · intro hbelongs
    obtain ⟨person, hperson, -⟩ := subjectBelongsToHr_eq_true.mp hbelongs
    have hid : person.id = access.personnelId := Table.id_of_get? hperson
    rw [← hid] at hbelongs
    exact ⟨person, hperson, (hlaw.membership (Table.mem_of_get? hperson)).mp hbelongs⟩
  · intro ⟨person, hperson, hworks⟩
    have hid : person.id = access.personnelId := Table.id_of_get? hperson
    rw [← hid]
    exact (hlaw.membership (Table.mem_of_get? hperson)).mpr hworks

/-- In a run whose requests are careful with the units the catalogue holds, every renaming moves exactly the
members of its unit, and every record skips the review of HR as its subject's unit says; and the law is kept on the
whole way only then. -/
theorem catalogue_iff {tr : List (Taken Database Request)} (h : CatalogueRun tr db) :
    ((∀ x ∈ tr, x.label.operation.CarefulWithUnits x.before) →
        CatalogueHolds db ∧ ∀ x ∈ tr, CatalogueHolds x.after ∧ RenamesMembers x ∧ OpensByUnit x) ∧
      ((∀ x ∈ tr, KeepsCatalogue x) ↔ ∀ x ∈ tr, x.label.operation.CarefulWithUnits x.before) := by
  have hiff : (∀ x ∈ tr, KeepsCatalogue x) ↔ ∀ x ∈ tr, x.label.operation.CarefulWithUnits x.before := by
    refine h.meets_iff (P := CatalogueLaw) (Q := KeepsCatalogue)
      (C := fun x => x.label.operation.CarefulWithUnits x.before) (fun _ hinit => hinit) (fun _ hkeeps => hkeeps.law) ?_
    intro db req db' hlaw hstep
    exact catalogueStep_iff hstep hlaw
  refine ⟨fun hcareful => ?_, hiff⟩
  have hkeeps := hiff.mpr hcareful
  have hlaw : CatalogueLaw db :=
    h.holds_at_end (P := CatalogueLaw) (fun _ hinit => hinit) fun x hx => (hkeeps x hx).law
  refine ⟨hlaw.holds, fun x hx => ⟨(hkeeps x hx).law.holds, (hkeeps x hx).renames, ?_⟩⟩
  obtain ⟨⟨old, hold, hsub⟩, hstep⟩ := h.step_of_mem hx
  have hbefore : CatalogueLaw x.before :=
    hold.holds_at_end (P := CatalogueLaw) (fun _ hinit => hinit) fun y hy => (hkeeps y (hsub y hy)).law
  exact opensByUnit hstep hbefore

end

/-! ## The unit of the employee is renamed -/

theorem office_law : CatalogueLaw (office fullChain) := by
  refine ⟨?_, ?_⟩
  · intro unit hunit
    exact absurd hunit (Table.not_mem_empty unit)
  · intro person _ unit hunit
    exact absurd hunit (Table.not_mem_empty unit)

def addUnit (site : Option String) (name : String) : Request := ask 5 (.createOrgUnit site name)

/-- The unit of the employee and the unit of a site. -/
def unitsAdded : List Request := [addUnit (some "S") "M", addUnit none "U"]

/-- The first one gets another name and is from then on the unit of HR. -/
def unitRenamed : List Request := ask 5 (.updateOrgUnit 1 { name := some "N", isHrUnit := some true }) :: unitsAdded

def unitOfEmployee : OrgUnit := ⟨1, none, "U", true, false⟩

def renamedToHr : OrgUnit := ⟨1, none, "N", true, true⟩

def unitOfSite : OrgUnit := ⟨2, some "S", "M", true, false⟩

theorem unitsAdded_units {unit : OrgUnit} (h : unit ∈ (endState settled (office fullChain) unitsAdded).orgUnits) :
    unit = unitOfEmployee ∨ unit = unitOfSite := by
  have hrows : (endState settled (office fullChain) unitsAdded).orgUnits.rows = [unitOfEmployee, unitOfSite] := by
    decide
  have hmem : unit ∈ (endState settled (office fullChain) unitsAdded).orgUnits.rows := h
  rw [hrows] at hmem
  simpa using hmem

/-- The employee is in the unit that is renamed, and the new name is no other one's. -/
theorem unitRenamed_careful :
    MayBecome (endState settled (office fullChain) unitsAdded) unitOfEmployee renamedToHr := by
  have hpeople : ∀ person ∈ (endState settled (office fullChain) unitsAdded).personnel, person = employee 1 :=
    fun person hperson => List.mem_singleton.mp hperson
  constructor
  · intro other hother hid
    obtain rfl | rfl := unitsAdded_units hother
    · exact absurd rfl hid
    · decide
  · intro _ person hperson
    rw [hpeople person hperson, isClear_iff]
    decide
  · intro _ person hperson helsewhere
    rw [hpeople person hperson] at helsewhere
    exact absurd (by decide) helsewhere
  · intro _
    refine ⟨fun _ => isClear_iff.mpr (by decide), ?_⟩
    intro other hother hid hhr
    obtain rfl | rfl := unitsAdded_units hother
    · exact absurd rfl hid
    · exact absurd hhr (by decide)

/-- The catalogue holds after the renaming, and the employee has moved to the new name. -/
theorem unitRenamed_holds :
    CatalogueHolds (endState settled (office fullChain) unitRenamed) ∧
      (endState settled (office fullChain) unitRenamed).personnel.get? 1 =
        some { employee 1 with orgUnit := "N" } := by
  have hrun : CatalogueRun (replay settled (office fullChain) unitRenamed)
      (endState settled (office fullChain) unitRenamed) := run_replay office_law (steps_replay (by decide))
  have hholds := (catalogue_iff hrun).1 ?_
  · have hrenames := (hholds.2 _ List.mem_cons_self).2.1
    obtain ⟨orgUnit, hget, hname, hmoved⟩ := hrenames 1 _ unitOfEmployee rfl (by rfl) (by decide) 1 (employee 1) rfl
    refine ⟨hholds.1, ?_⟩
    obtain rfl | rfl := hname
    · exact absurd rfl (hmoved.mpr (by decide))
    · exact hget
  · intro x hx
    simp only [unitRenamed, unitsAdded, replay, List.mem_cons, List.not_mem_nil, or_false] at hx
    obtain rfl | rfl | rfl := hx
    · intro unit hget
      have hunit : (endState settled (office fullChain) unitsAdded).orgUnits.get? 1 = some unitOfEmployee := rfl
      obtain rfl : unitOfEmployee = unit := Option.some.inj (hunit.symm.trans hget)
      exact unitRenamed_careful
    · intro unit hunit
      have hrows : (endState settled (office fullChain) [addUnit none "U"]).orgUnits.rows = [unitOfEmployee] := by
        decide
      have hmem : unit ∈ (endState settled (office fullChain) [addUnit none "U"]).orgUnits.rows := hunit
      rw [hrows, List.mem_singleton] at hmem
      rw [hmem]
      decide
    · intro unit hunit
      exact absurd hunit (Table.not_mem_empty unit)

/-- Nothing keeps a unit without a site from being there twice. -/
theorem unit_there_twice : ¬∀ tr db, CatalogueRun tr db → CatalogueHolds db := by
  intro hclaim
  have hrun : CatalogueRun (replay settled (office fullChain) [addUnit none "U", addUnit none "U"])
      (endState settled (office fullChain) [addUnit none "U", addUnit none "U"]) :=
    run_replay office_law (steps_replay (by decide))
  have hdistinct := (hclaim _ _ hrun).distinct
  obtain ⟨one, hone, hfirst⟩ := exists_of_any
    (o := (endState settled (office fullChain) [addUnit none "U", addUnit none "U"]).orgUnits.get? 1)
    (p := fun unit => unit.id = 1 && unit.fullName = "U") (by decide)
  obtain ⟨two, htwo, hsecond⟩ := exists_of_any
    (o := (endState settled (office fullChain) [addUnit none "U", addUnit none "U"]).orgUnits.get? 2)
    (p := fun unit => unit.id = 2 && unit.fullName = "U") (by decide)
  rw [Bool.and_eq_true, decide_eq_true_eq, decide_eq_true_eq] at hfirst hsecond
  refine hdistinct one (Table.mem_of_get? hone) two (Table.mem_of_get? htwo) ?_ (hfirst.2.trans hsecond.2.symm)
  intro hsame
  rw [hsame, hsecond.1] at hfirst
  exact absurd hfirst.1 (by decide)

end NexaHR
