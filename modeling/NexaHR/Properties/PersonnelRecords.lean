import NexaHR.System.Installation
import NexaHR.System.PersonnelWrites

/-! # The law of a person's record

A record has texts that are there, stripped and short enough, a contract that ends after it starts, and the two
fields of a departure exactly when the person has left. Four requests write records, and each checks its own
part of this.

* `Personnel.Sound`: the law.
* `PersonnelWrite.Careful`: what a request has to leave alone for its records to keep it.
* `answers_sound_iff`: the step, with one case for each request.
* `personnel_sound_iff`: the runs.
-/

namespace NexaHR

open Foundations

set_option autoImplicit false

/-! ## The law -/

structure IsColumnText (maxLength : Nat) (s : String) : Prop where
  filled : s ≠ ""
  trimmed : strip s = s
  fits : s.length ≤ maxLength

structure Personnel.Sound (person : Personnel) : Prop where
  code : IsColumnText 50 person.personnelCode
  name : IsColumnText 200 person.fullName
  title : IsColumnText 150 person.jobTitle
  unit : IsColumnText 150 person.orgUnit
  dates : person.contractStartDate < person.contractEndDate
  active : person.status = .active → person.separationDate = none ∧ person.separationReason = none
  inactive : person.status = .inactive → person.separationDate.isSome = true ∧ person.separationReason.isSome = true

def AllSound (personnel : Table Personnel) : Prop := ∀ person ∈ personnel, person.Sound

/-! ## What a request has to leave alone -/

/-- What the schema strips of the text leaves none of the separators that it takes for letters. -/
def TrimsClean (s : String) : Prop := strip (stripWhitespace s) = stripWhitespace s

/-- The update takes somebody who is active out or leaves the fields of a departure empty, takes somebody back,
or leaves somebody who is out with both. -/
def PersonnelPatch.KeepsSeparation (person : Personnel) (p : PersonnelPatch) : Prop :=
  p.status.join = some .active ∨
    (person.status = .active ∧
      (p.status.join = some .inactive ∨ p.separationDate.join = none ∧ p.separationReason.join = none)) ∨
    (person.status = .inactive ∧ p.separationDate ≠ some none ∧ p.separationReason ≠ some none)

def PersonnelWrite.Careful (calendar : Calendar) (db : Database) : PersonnelWrite → Prop
  | create p =>
    TrimsClean p.personnelCode ∧ TrimsClean p.fullName ∧ TrimsClean p.jobTitle ∧ TrimsClean p.orgUnit
  | update personnelId p =>
    (∀ s, p.personnelCode.join = some s → TrimsClean s) ∧ (∀ s, p.fullName.join = some s → TrimsClean s) ∧
      (∀ s, p.jobTitle.join = some s → TrimsClean s) ∧ (∀ s, p.orgUnit.join = some s → TrimsClean s) ∧
      ∀ person, db.personnel.get? personnelId = some person → p.KeepsSeparation person
  -- the rows that the reading accepts are of active people, and their contracts take more than a day
  | importFile upload =>
    ∀ preview, parseWorkbook calendar db upload.sheet = .ok preview → ∀ row ∈ acceptedRows preview.rows,
      row.status = .active ∧ row.fields.contractStartDate ≠ row.fields.contractEndDate
  | createByTool a =>
    strip a.personnelCode ≠ "" ∧ IsColumnText 200 (firstChars 200 (strip a.fullName)) ∧
      IsColumnText 150 (firstChars 150 (strip a.jobTitle)) ∧ IsColumnText 150 (firstChars 150 (strip a.orgUnit))
  | elsewhere (.updateOrgUnit unitId p) =>
    ∀ unit, db.orgUnits.get? unitId = some unit → (∃ person ∈ db.personnel, person.orgUnit = unit.fullName) →
      (unit.updated p).fullName ≠ ""
  | elsewhere _ => True

/-! ## New people -/

section

variable {errorText : String → String} {calendar : Calendar} {db db' : Database} {env : Env}
  {user : CurrentUser}

/-- The texts of a person are as the law wants them. -/
structure PersonnelFields.Sound (p : PersonnelFields) : Prop where
  code : IsColumnText 50 p.personnelCode
  name : IsColumnText 200 p.fullName
  title : IsColumnText 150 p.jobTitle
  unit : IsColumnText 150 p.orgUnit

/-- Nobody who is new has left properly. -/
theorem newPersonnel_sound_iff {p : PersonnelFields} {status : PersonnelStatus} {id : Nat} :
    (newPersonnel p status id).Sound ↔
      p.Sound ∧ p.contractStartDate < p.contractEndDate ∧ status = .active := by
  constructor
  · intro h
    refine ⟨⟨h.code, h.name, h.title, h.unit⟩, h.dates, ?_⟩
    cases hstatus : status with
    | active => rfl
    | inactive => cases (h.inactive hstatus).1
  · rintro ⟨htexts, hdates, rfl⟩
    refine ⟨htexts.code, htexts.name, htexts.title, htexts.unit, hdates, fun _ => ⟨rfl, rfl⟩, ?_⟩
    intro hinactive
    cases hinactive

theorem allSound_insert_iff {personnel : Table Personnel} {p : PersonnelFields} {status : PersonnelStatus}
    (hsound : AllSound personnel) :
    AllSound (personnel.insert (newPersonnel p status) (newPersonnel_id p status)) ↔
      p.Sound ∧ p.contractStartDate < p.contractEndDate ∧ status = .active := by
  constructor
  · intro h
    exact newPersonnel_sound_iff.mp (h _ ((Table.mem_insert _).mpr (Or.inr rfl)))
  · intro h person hperson
    rcases (Table.mem_insert _).mp hperson with hold | rfl
    · exact hsound person hold
    · exact newPersonnel_sound_iff.mpr h

/-- A text that the schema accepts fits its column; only its separators may be left. -/
theorem columnText_iff {label s : String} {maxLength : Nat} (h : textErrors label s maxLength = []) :
    IsColumnText maxLength (stripWhitespace s) ↔ TrimsClean s := by
  obtain ⟨hfilled, hfits⟩ := lengthError_eq_nil.mp h
  exact ⟨fun hcolumn => hcolumn.trimmed, fun hclean => ⟨hfilled, hclean, hfits⟩⟩

theorem create_sound_iff {p : PersonnelCreate} (h : createPersonnelRequest db env user p = .ok db')
    (hsound : AllSound db.personnel) :
    AllSound db'.personnel ↔
      TrimsClean p.personnelCode ∧ TrimsClean p.fullName ∧ TrimsClean p.jobTitle ∧ TrimsClean p.orgUnit := by
  obtain ⟨herrors, hcreate⟩ := createPersonnelRequest_ok h
  obtain ⟨horder, hpeople⟩ := createPersonnel_people hcreate
  unfold PersonnelCreate.errors at herrors
  simp only [List.append_eq_nil_iff] at herrors
  obtain ⟨⟨⟨⟨hcode, hname⟩, htitle⟩, hunit⟩, -⟩ := herrors
  rw [hpeople, allSound_insert_iff hsound]
  constructor
  · rintro ⟨htexts, -, -⟩
    exact ⟨(columnText_iff hcode).mp htexts.code, (columnText_iff hname).mp htexts.name,
      (columnText_iff htitle).mp htexts.title, (columnText_iff hunit).mp htexts.unit⟩
  · rintro ⟨hc, hn, ht, hu⟩
    exact ⟨⟨(columnText_iff hcode).mpr hc, (columnText_iff hname).mpr hn, (columnText_iff htitle).mpr ht,
      (columnText_iff hunit).mpr hu⟩, horder, rfl⟩

theorem tool_sound_iff {a : CreatePersonnelArguments}
    (h : createPersonnelByTool errorText calendar db env user a = .ok db') (hsound : AllSound db.personnel) :
    AllSound db'.personnel ↔
      strip a.personnelCode ≠ "" ∧ IsColumnText 200 (firstChars 200 (strip a.fullName)) ∧
        IsColumnText 150 (firstChars 150 (strip a.jobTitle)) ∧
        IsColumnText 150 (firstChars 150 (strip a.orgUnit)) := by
  obtain ⟨-, -, start, stop, horder, hfits, rfl⟩ := createPersonnelByTool_ok h
  have hpeople : AllSound ((insertPersonnel db (a.fields start stop) .active).log
      [directoryEvent env user "personnel_created"]).personnel ↔
      (a.fields start stop).Sound ∧ start < stop ∧ PersonnelStatus.active = .active :=
    allSound_insert_iff hsound
  rw [hpeople]
  unfold PersonnelFields.fitColumns at hfits
  simp only [Bool.and_eq_true, decide_eq_true_eq] at hfits
  constructor
  · rintro ⟨htexts, -, -⟩
    exact ⟨htexts.code.filled, htexts.name, htexts.title, htexts.unit⟩
  · rintro ⟨hcode, hname, htitle, hunit⟩
    exact ⟨⟨⟨hcode, strip_strip _, hfits.1.1.1⟩, hname, htitle, hunit⟩, horder, rfl⟩

/-! ## An import -/

theorem import_sound_iff {upload : Upload} (h : commitPersonnelImport calendar db env user upload = .ok db')
    (hsound : AllSound db.personnel) :
    AllSound db'.personnel ↔
      ∀ preview, parseWorkbook calendar db upload.sheet = .ok preview → ∀ row ∈ acceptedRows preview.rows,
        row.status = .active ∧ row.fields.contractStartDate ≠ row.fields.contractEndDate := by
  obtain ⟨-, preview, hpreview, -, hcommit⟩ := commitPersonnelImport_ok h
  obtain ⟨header, body, hrows, -⟩ := parseWorkbook_rows hpreview
  unfold commitImport at hcommit
  simp only [bind_eq_ok, pure_eq_ok, ensure_eq_ok, List.all_eq_true] at hcommit
  obtain ⟨-, hfits, rfl⟩ := hcommit
  constructor
  · intro hafter preview' hpreview' row hrow
    rw [hpreview] at hpreview'
    cases hpreview'
    obtain ⟨id, hmem⟩ : ∃ id, newPersonnel row.fields row.status id ∈
        ((acceptedRows preview.rows).foldl (importRow env user) db).personnel := importRows_adds hrow
    obtain ⟨-, hdates, hactive⟩ := newPersonnel_sound_iff.mp (hafter _ hmem)
    exact ⟨hactive, Nat.ne_of_lt hdates⟩
  · intro hcareful person hperson
    rcases mem_importRows_people hperson with hold | ⟨row, hrow, id, rfl⟩
    · exact hsound person hold
    · have haccepted := mem_acceptedRows hrows hrow
      obtain ⟨hactive, hdays⟩ := hcareful preview hpreview row hrow
      have hcolumns := hfits row hrow
      unfold PersonnelFields.fitColumns at hcolumns
      simp only [Bool.and_eq_true, decide_eq_true_eq] at hcolumns
      have horder := haccepted.order
      unfold ImportRow.datesInOrder at horder
      simp only [Bool.or_eq_true, Bool.and_eq_true, decide_eq_true_eq] at horder
      obtain ⟨hcode, hname, htitle, hunit⟩ := haccepted.texts
      refine newPersonnel_sound_iff.mpr ⟨⟨⟨hcode.2, hcode.1, ?_⟩, ⟨hname.2, hname.1, ?_⟩, ⟨htitle.2, htitle.1, ?_⟩,
        ⟨hunit.2, hunit.1, ?_⟩⟩, ?_, hactive⟩
      · exact hcolumns.1.1.1
      · exact hcolumns.1.1.2
      · exact hcolumns.1.2
      · exact hcolumns.2
      · exact horder.resolve_right fun hsame => hdays hsame.1

/-! ## An update -/

/-- A text that is given and accepted, or the one that was there. -/
theorem patchedText_iff {given : Option (Option String)} {old label : String} {maxLength : Nat}
    (hold : IsColumnText maxLength old)
    (herrors : (given.join.map fun s => textErrors label s maxLength).getD [] = []) :
    IsColumnText maxLength ((given.join.map stripWhitespace).getD old) ↔
      ∀ s, given.join = some s → TrimsClean s := by
  cases hgiven : given.join with
  | none =>
    constructor
    · intro _ s hs
      cases hs
    · intro _
      exact hold
  | some s =>
    rw [hgiven, Option.map_some, Option.getD_some] at herrors
    rw [Option.map_some, Option.getD_some]
    have hcolumn := columnText_iff herrors
    constructor
    · intro h s' hs'
      cases hs'
      exact hcolumn.mp h
    · intro h
      exact hcolumn.mpr (h s rfl)

theorem getD_none_eq_none {α : Type} {given : Option (Option α)} : given.getD none = none ↔ given.join = none := by
  cases given <;> simp

theorem getD_isSome_iff {α : Type} {given : Option (Option α)} {old : Option α} (hold : old.isSome = true) :
    (given.getD old).isSome = true ↔ given ≠ some none := by
  cases given with
  | none => simp [hold]
  | some value => cases value <;> simp

/-- The fields of a departure are both there exactly when the person has left. -/
def KeepsFields (person : Personnel) : Prop :=
  (person.status = .active → person.separationDate = none ∧ person.separationReason = none) ∧
    (person.status = .inactive → person.separationDate.isSome = true ∧ person.separationReason.isSome = true)

/-- The fields of a departure after an update, which asks for a reason when somebody leaves. -/
theorem keepsFields_iff {person : Personnel} {p : PersonnelPatch} (hsound : person.Sound)
    (hreason : ¬(person.isLeaving p.update = true ∧ p.separationReason.join = none)) :
    KeepsFields (person.updated env p.update) ↔ p.KeepsSeparation person := by
  have hstatus : p.update.status = p.status.join := rfl
  unfold KeepsFields PersonnelPatch.KeepsSeparation Personnel.updated
  unfold Personnel.isLeaving at hreason ⊢
  rw [hstatus] at hreason ⊢
  cases hperson : person.status with
  | active =>
    obtain ⟨hdate, hnone⟩ := hsound.active hperson
    rw [hperson] at hreason
    rw [hdate, hnone]
    cases hnew : p.status.join with
    | none => simp [getD_none_eq_none, PersonnelPatch.update]
    | some status =>
      cases status with
      | active => simp
      | inactive =>
        rw [hnew] at hreason
        have hgiven : p.separationReason.join ≠ none := by simpa using hreason
        have hsome : (p.separationReason.getD none).isSome = true := by
          rw [Option.isSome_iff_ne_none]
          exact fun h => hgiven (getD_none_eq_none.mp h)
        simp [PersonnelPatch.update, hsome]
  | inactive =>
    obtain ⟨hdate, hsome⟩ := hsound.inactive hperson
    have hdates := @getD_isSome_iff _ p.separationDate _ hdate
    have hreasons := @getD_isSome_iff _ p.separationReason _ hsome
    cases hnew : p.status.join with
    | none => simp [PersonnelPatch.update, hdates, hreasons]
    | some status =>
      cases status with
      | active => simp
      | inactive => simp [PersonnelPatch.update, hdates, hreasons]

theorem update_sound_iff {personnelId : Nat} {p : PersonnelPatch}
    (h : updatePersonnelRequest db env user personnelId p = .ok db') (hsound : AllSound db.personnel) :
    AllSound db'.personnel ↔
      (∀ s, p.personnelCode.join = some s → TrimsClean s) ∧ (∀ s, p.fullName.join = some s → TrimsClean s) ∧
        (∀ s, p.jobTitle.join = some s → TrimsClean s) ∧ (∀ s, p.orgUnit.join = some s → TrimsClean s) ∧
        ∀ person, db.personnel.get? personnelId = some person → p.KeepsSeparation person := by
  obtain ⟨herrors, -, hupdate⟩ := updatePersonnelRequest_ok h
  obtain ⟨person, hget, hreason, horder, hpeople⟩ := updatePersonnel_people hupdate
  have hperson := hsound person (Table.mem_of_get? hget)
  have hseparation := @keepsFields_iff env person p hperson hreason
  unfold PersonnelPatch.errors at herrors
  simp only [List.append_eq_nil_iff] at herrors
  obtain ⟨⟨⟨hcode, hname⟩, htitle⟩, hunit⟩ := herrors
  have hcodeText := patchedText_iff hperson.code hcode
  have hnameText := patchedText_iff hperson.name hname
  have htitleText := patchedText_iff hperson.title htitle
  have hunitText := patchedText_iff hperson.unit hunit
  rw [hpeople]
  constructor
  · intro hafter
    have hupdated := hafter _ (Table.mem_put_self (Table.mem_of_get? hget) rfl)
    refine ⟨hcodeText.mp hupdated.code, hnameText.mp hupdated.name, htitleText.mp hupdated.title,
      hunitText.mp hupdated.unit, ?_⟩
    intro person' hget'
    rw [hget] at hget'
    cases hget'
    exact hseparation.mp ⟨hupdated.active, hupdated.inactive⟩
  · rintro ⟨hc, hn, ht, hu, hkeeps⟩ other hother
    rcases Table.mem_put hother with ⟨hold, -⟩ | rfl
    · exact hsound other hold
    · obtain ⟨hactive, hinactive⟩ := hseparation.mpr (hkeeps person hget)
      exact ⟨hcodeText.mpr hc, hnameText.mpr hn, htitleText.mpr ht, hunitText.mpr hu, horder, hactive, hinactive⟩

/-! ## A unit that is renamed -/

theorem rename_sound_iff {unitId : Nat} {p : OrgUnitUpdate} (h : updateOrgUnit db env user unitId p = .ok db')
    (hsound : AllSound db.personnel) :
    AllSound db'.personnel ↔ ∀ unit, db.orgUnits.get? unitId = some unit →
      (∃ person ∈ db.personnel, person.orgUnit = unit.fullName) → (unit.updated p).fullName ≠ "" := by
  obtain ⟨unit, hget, -, hfits, entries, rfl⟩ := updateOrgUnit_ok h
  constructor
  · intro hafter unit' hget' ⟨person, hperson, hunit⟩
    rw [hget] at hget'
    cases hget'
    have hmoved := hafter _ (mem_renameOrgUnit.mpr ⟨person, hperson, rfl⟩)
    have hfilled := hmoved.unit.filled
    rwa [moveUnit_member hunit] at hfilled
  · intro hfilled person hperson
    obtain ⟨old, hold, rfl⟩ := mem_renameOrgUnit.mp hperson
    have holdSound := hsound old hold
    unfold moveUnit
    split
    · next hunit =>
      have hshort : (unit.updated p).fullName.length ≤ 150 := by
        by_cases hsame : (unit.updated p).fullName = unit.fullName
        · rw [hsame, ← hunit]
          exact holdSound.unit.fits
        · exact (hfits hsame).resolve_left fun hnobody => hnobody old hold hunit
      have hmoved : IsColumnText 150 (unit.updated p).fullName :=
        ⟨hfilled unit hget ⟨old, hold, hunit⟩, OrgUnit.strip_fullName _, hshort⟩
      exact ⟨holdSound.code, holdSound.name, holdSound.title, hmoved, holdSound.dates, holdSound.active,
        holdSound.inactive⟩
    · exact holdSound

/-! ## The step and the runs -/

/-- A request keeps the law exactly when it is careful. -/
theorem answers_sound_iff {write : PersonnelWrite} (h : write.Answers errorText calendar db env user db')
    (hsound : AllSound db.personnel) : AllSound db'.personnel ↔ write.Careful calendar db := by
  cases write with
  | create payload => exact create_sound_iff h hsound
  | update personnelId payload => exact update_sound_iff h hsound
  | importFile upload => exact import_sound_iff h hsound
  | createByTool arguments => exact tool_sound_iff h hsound
  | elsewhere operation =>
    obtain ⟨hother, hrun⟩ := h
    have hkept := (Operation.run_keepsOthers hrun).personnel
    cases operation with
    | createPersonnel payload username => cases hother
    | importPersonnel rows => cases hother
    | updatePersonnel personnelId payload => cases hother
    | updateOrgUnit unitId payload => exact rename_sound_iff hrun hsound
    | _ =>
      rw [hkept.resolve_left Bool.false_ne_true]
      exact iff_of_true hsound trivial

end

section

variable (errorText : String → String) (calendar : Calendar)

/-- A run of the requests that write people, among all others, from people whose records keep the law. -/
abbrev PersonnelRun (tr : List (Taken Database PersonnelRequest)) (db : Database) : Prop :=
  Run (fun db : Database => AllSound db.personnel) (Writes errorText calendar) tr db

/-- In a run whose requests are careful every record keeps the law; and the records of every state on the way
keep it only then. -/
theorem personnel_sound_iff {tr : List (Taken Database PersonnelRequest)} {db : Database}
    (h : PersonnelRun errorText calendar tr db) :
    ((∀ x ∈ tr, x.label.write.Careful calendar x.before) → ∀ person ∈ db.personnel, person.Sound) ∧
      ((∀ x ∈ tr, ∀ person ∈ x.after.personnel, person.Sound) ↔
        ∀ x ∈ tr, x.label.write.Careful calendar x.before) := by
  have hiff : (∀ x ∈ tr, AllSound x.after.personnel) ↔ ∀ x ∈ tr, x.label.write.Careful calendar x.before := by
    refine h.keeps_iff (P := fun db : Database => AllSound db.personnel)
      (C := fun x : Taken Database PersonnelRequest => x.label.write.Careful calendar x.before) (fun _ hinit => hinit) ?_
    intro db req db' hsound ⟨user, _, hanswers⟩
    exact answers_sound_iff hanswers hsound
  refine ⟨fun hcareful => ?_, hiff⟩
  exact h.holds_at_end (P := fun db : Database => AllSound db.personnel) (fun _ hinit => hinit) (hiff.mpr hcareful)

end

/-! ## A reason for somebody who is still there -/

theorem office_sound : AllSound (office fullChain).personnel := by
  intro person hperson
  obtain rfl : person = employee 1 := List.mem_singleton.mp hperson
  refine ⟨?_, ?_, ?_, ?_, by decide, fun _ => ⟨rfl, rfl⟩, ?_⟩
  · exact ⟨by decide, by decide, by decide⟩
  · exact ⟨by decide, by decide, by decide⟩
  · exact ⟨by decide, by decide, by decide⟩
  · exact ⟨by decide, by decide, by decide⟩
  · intro hleft
    cases hleft

/-- A calendar that knows no date; the requests below name none. -/
def noCalendar : Calendar := ⟨fun _ _ _ => none, fun _ => none⟩

def patchEmployee (payload : PersonnelPatch) : PersonnelRequest := ⟨5, someDay, .update 1 payload⟩

/-- The database after an update of the employee by HR. -/
def patchedOffice (payload : PersonnelPatch) : Database :=
  match updatePersonnelRequest (office fullChain) someDay ⟨5, "hr2", .hr, none⟩ 1 payload with
  | .ok db => db
  | .error _ => office fullChain

theorem patchedOffice_eq {payload : PersonnelPatch}
    (h : (updatePersonnelRequest (office fullChain) someDay ⟨5, "hr2", .hr, none⟩ 1 payload).isOk = true) :
    updatePersonnelRequest (office fullChain) someDay ⟨5, "hr2", .hr, none⟩ 1 payload =
      .ok (patchedOffice payload) := by
  unfold patchedOffice
  cases hpatch : updatePersonnelRequest (office fullChain) someDay ⟨5, "hr2", .hr, none⟩ 1 payload with
  | ok db => rfl
  | error e =>
    rw [hpatch] at h
    cases h

theorem patched_run (payload : PersonnelPatch)
    (h : (updatePersonnelRequest (office fullChain) someDay ⟨5, "hr2", .hr, none⟩ 1 payload).isOk = true) :
    PersonnelRun id noCalendar [⟨office fullChain, patchEmployee payload, patchedOffice payload⟩]
      (patchedOffice payload) :=
  Run.cons (Run.nil office_sound) ⟨⟨5, "hr2", .hr, none⟩, rfl, patchedOffice_eq h⟩

/-- Somebody leaves, and the record has both fields of the departure. -/
theorem departure_keeps_the_law :
    AllSound (patchedOffice
      { status := some (some .inactive), separationReason := some (some .resignation) }).personnel := by
  refine (personnel_sound_iff id noCalendar (patched_run _ (by decide))).1 ?_
  intro x hx
  obtain rfl := List.mem_singleton.mp hx
  refine ⟨?_, ?_, ?_, ?_, ?_⟩
  · exact fun s hs => by cases hs
  · exact fun s hs => by cases hs
  · exact fun s hs => by cases hs
  · exact fun s hs => by cases hs
  · intro person hget
    obtain rfl : employee 1 = person := Option.some.inj hget
    exact Or.inr (Or.inl ⟨rfl, Or.inl rfl⟩)

/-- An update gives a reason to somebody who does not leave. -/
theorem reason_without_departure :
    ¬∀ errorText calendar tr db, PersonnelRun errorText calendar tr db →
      ∀ person ∈ db.personnel, person.Sound := by
  intro hclaim
  have hsound := hclaim _ _ _ _ (patched_run { separationReason := some (some .resignation) } (by decide))
  obtain ⟨person, hget, hreason⟩ := exists_of_any
    (o := (patchedOffice { separationReason := some (some .resignation) }).personnel.get? 1)
    (p := fun person => person.status = .active && person.separationReason.isSome) (by decide)
  rw [Bool.and_eq_true, decide_eq_true_eq] at hreason
  have hnone := ((hsound person (Table.mem_of_get? hget)).active hreason.1).2
  rw [hnone] at hreason
  cases hreason.2

end NexaHR
