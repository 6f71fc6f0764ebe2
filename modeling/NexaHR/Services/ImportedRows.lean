import NexaHR.Services.PersonnelImport

/-! # The rows that an import accepts

* `Accepted`: what a row without errors says.
* `parseRow_accepted`: the step lemma, for a row after the rows above it.
* `validRows_accepted`: the directory accepts the rows that the reading accepts, so `commitImport_refines`
  makes the import of a file one of the directory.
-/

namespace NexaHR

open Foundations

set_option autoImplicit false

/-! ## Texts of cells -/

theorem isSpace_asciiDigit (c : Char) : isSpace (asciiDigit c) = isSpace c := by
  have hpersian : ∀ k < 10, isSpace (asciiDigit (Char.ofNat (0x6f0 + k))) = isSpace (Char.ofNat (0x6f0 + k)) := by
    decide
  have harabic : ∀ k < 10, isSpace (asciiDigit (Char.ofNat (0x660 + k))) = isSpace (Char.ofNat (0x660 + k)) := by
    decide
  by_cases hp : 0x6f0 ≤ c.toNat ∧ c.toNat ≤ 0x6f9
  · have hdigit := hpersian (c.toNat - 0x6f0) (by omega)
    rwa [Nat.add_sub_cancel' hp.1, Char.ofNat_toNat] at hdigit
  · by_cases ha : 0x660 ≤ c.toNat ∧ c.toNat ≤ 0x669
    · have hdigit := harabic (c.toNat - 0x660) (by omega)
      rwa [Nat.add_sub_cancel' ha.1, Char.ofNat_toNat] at hdigit
    · unfold asciiDigit
      rw [if_neg hp, if_neg ha]

@[simp] theorem strip_cellText (raw : Cell) : strip (cellText raw) = cellText raw := by
  cases raw with
  | empty => exact strip_empty
  | text value => exact strip_strip _
  | date day shown => exact strip_strip shown
  | moment day second shown => exact strip_strip shown
  | other shown => exact strip_strip shown

theorem strip_normaliseDigits {s : String} (hs : strip s = s) : strip (normaliseDigits s) = normaliseDigits s :=
  strip_map isSpace_asciiDigit hs

/-! ## One row -/

/-- The texts of a person are stripped and there. -/
structure PersonnelFields.Stripped (p : PersonnelFields) : Prop where
  code : strip p.personnelCode = p.personnelCode ∧ p.personnelCode ≠ ""
  name : strip p.fullName = p.fullName ∧ p.fullName ≠ ""
  title : strip p.jobTitle = p.jobTitle ∧ p.jobTitle ≠ ""
  unit : strip p.orgUnit = p.orgUnit ∧ p.orgUnit ≠ ""

/-- What a row without errors says, below rows that gave the codes and login names in `seen`. -/
structure Accepted (db : Database) (seen : Seen) (row : ImportRow) : Prop where
  texts : row.fields.Stripped
  order : row.datesInOrder = true
  code_free : ∀ person ∈ db.personnel, person.personnelCode ≠ row.fields.personnelCode
  code_new : row.fields.personnelCode ∉ seen.codes.map Prod.fst
  username_free : ∀ username, row.username = some username → ∀ u ∈ db.users, u.username ≠ username
  username_new : ∀ username, row.username = some username → username ∉ seen.usernames.map Prod.fst
  supervisor : isResolved db .unitSupervisor row.unitSupervisorUserId = true
  deputy : isResolved db .deputy row.deputyUserId = true
  ceo : isResolved db .ceo row.ceoUserId = true
  manager : row.fields.isManager = true → row.unitSupervisorUserId = none
  single : row.isRedundant = false

section

variable {db : Database} {seen : Seen} {calendar : Calendar}

theorem blankError_eq_nil {label value : String} : blankError label value = [] ↔ value ≠ "" := by
  unfold blankError
  simp

theorem lookup_eq_none {value : String} {above : List (String × Nat)} (h : above.lookup value = none) :
    value ∉ above.map Prod.fst := by
  rw [List.lookup_eq_none_iff] at h
  intro hmem
  obtain ⟨entry, hentry, rfl⟩ := List.mem_map.mp hmem
  have hne := h entry hentry
  simp at hne

theorem codeErrors_eq_nil {code : String} (hne : code ≠ "") (h : codeErrors db seen code = []) :
    (∀ person ∈ db.personnel, person.personnelCode ≠ code) ∧ code ∉ seen.codes.map Prod.fst := by
  unfold codeErrors at h
  rw [if_neg hne] at h
  split at h
  · cases h
  · next hany =>
    split at h
    · cases h
    · next hlookup =>
      refine ⟨?_, lookup_eq_none hlookup⟩
      intro person hperson heq
      exact hany (List.any_eq_true.mpr ⟨person, hperson, by simpa using heq⟩)

theorem usernameErrors_eq_nil {username : String} (hne : username ≠ "")
    (h : usernameErrors db seen username = []) :
    (∀ u ∈ db.users, u.username ≠ username) ∧ username ∉ seen.usernames.map Prod.fst := by
  unfold usernameErrors at h
  rw [if_neg hne] at h
  split at h
  · cases h
  · split at h
    · cases h
    · next hany =>
      split at h
      · cases h
      · next hlookup =>
        refine ⟨?_, lookup_eq_none hlookup⟩
        intro u hu heq
        exact hany (List.any_eq_true.mpr ⟨u, hu, by simpa using heq⟩)

theorem acceptedText_eq_some {errors : List String} {value accepted : String}
    (h : acceptedText errors value = some accepted) : value ≠ "" ∧ value = accepted := by
  unfold acceptedText at h
  split at h
  · next hvalue =>
    cases h
    exact ⟨hvalue.2, rfl⟩
  · cases h

theorem le?_eq_false {start stop : CellDate} (h : stop.le? start = some false) :
    start.day < stop.day ∨ start.day = stop.day ∧ start.second < stop.second := by
  cases start with
  | date a =>
    cases stop with
    | date b =>
      simp only [CellDate.le?, Option.some.injEq, decide_eq_false_iff_not] at h
      exact Or.inl (Nat.lt_of_not_le h)
    | moment b t => cases h
  | moment a s =>
    cases stop with
    | date b => cases h
    | moment b t =>
      simp only [CellDate.le?, Option.some.injEq, Bool.or_eq_false_iff, decide_eq_false_iff_not,
        Bool.and_eq_false_imp, decide_eq_true_eq] at h
      obtain ⟨hday, hsecond⟩ := h
      show a < b ∨ a = b ∧ s < t
      by_cases heq : b = a
      · exact Or.inr ⟨heq.symm, Nat.lt_of_not_le (hsecond heq)⟩
      · left
        omega

theorem orderErrors_eq_nil {start stop : CellDate} (h : orderErrors (some start) (some stop) = .ok []) :
    start.day < stop.day ∨ start.day = stop.day ∧ start.second < stop.second := by
  unfold orderErrors at h
  split at h
  · next heq hstart hstop =>
    cases hstart
    cases hstop
    split at h
    · cases h
    · cases h
    · next hle => exact le?_eq_false hle
  · next hnone => exact absurd rfl (hnone start stop rfl)

/-! ### The chain -/

theorem mem_matchingUsers {written : String} {u : User} (h : u ∈ matchingUsers db written) :
    u ∈ db.users ∧ u.isActive = true := by
  unfold matchingUsers namesakes at h
  split at h
  · obtain ⟨hmem, hp⟩ := List.mem_filter.mp h
    rw [Bool.and_eq_true] at hp
    exact ⟨hmem, hp.1⟩
  · obtain ⟨hmem, hp⟩ := List.mem_filter.mp h
    rw [Bool.and_eq_true] at hp
    exact ⟨hmem, hp.1⟩

theorem isResolved_of_mem {seat : ChainSeat} {u : User} (hu : u ∈ db.users) (hactive : u.isActive = true)
    (hact : mayActAt u.role (seatRole seat) = true) : isResolved db seat (some u.id) = true := by
  have hget : db.users.get? u.id = some u := Table.get?_of_mem hu
  unfold isResolved
  rw [Option.all_some, hget, Option.any_some, hactive, hact]
  rfl

theorem isResolved_or {seat : ChainSeat} {a b : Option Nat} (ha : isResolved db seat a = true)
    (hb : isResolved db seat b = true) : isResolved db seat (a.or b) = true := by
  cases a with
  | none => exact hb
  | some k => exact ha

theorem isResolved_foundUser {fullName written : String} {seat : ChainSeat} :
    isResolved db seat (foundUser (resolveSeat db fullName written seat)) = true := by
  unfold resolveSeat
  split
  · rfl
  · split
    · rfl
    · split
      · rfl
      · next u hu =>
        split
        · next hact =>
          obtain ⟨hmem, hactive⟩ := mem_matchingUsers (hu ▸ List.mem_singleton_self u)
          exact isResolved_of_mem hmem hactive hact
        · rfl
      · rfl

theorem isResolved_soleCeo : isResolved db .ceo (soleCeo db) = true := by
  unfold soleCeo
  split
  · next u hu =>
    have hmem := hu ▸ List.mem_singleton_self u
    obtain ⟨hrow, hp⟩ := List.mem_filter.mp hmem
    simp only [Bool.and_eq_true, decide_eq_true_eq] at hp
    exact isResolved_of_mem hrow hp.1.1 (by rw [hp.2]; decide)
  · rfl

theorem redundancyError_eq_nil {supervisor deputy ceo : Option Nat}
    (h : redundancyError supervisor deputy ceo = []) :
    ¬(supervisor.isSome = true ∧ supervisor = deputy) ∧ ¬(deputy.isSome = true ∧ deputy = ceo) := by
  unfold redundancyError at h
  split at h
  · cases h
  · next hfirst =>
    split at h
    · cases h
    · next hsecond => exact ⟨hfirst, hsecond⟩

/-! ### The step -/

theorem RowValues.chain_ok {v : RowValues} (h : (v.chain db).errors = []) :
    isResolved db .unitSupervisor (v.chain db).unitSupervisorUserId = true ∧
      isResolved db .deputy (v.chain db).deputyUserId = true ∧ isResolved db .ceo (v.chain db).ceoUserId = true ∧
      (v.isManager.getD false = true → (v.chain db).unitSupervisorUserId = none) ∧
      ¬((v.chain db).unitSupervisorUserId.isSome = true ∧
        (v.chain db).unitSupervisorUserId = (v.chain db).deputyUserId) ∧
      ¬((v.chain db).deputyUserId.isSome = true ∧ (v.chain db).deputyUserId = (v.chain db).ceoUserId) := by
  unfold RowValues.chain resolveChain at h ⊢
  simp only [List.append_eq_nil_iff] at h
  refine ⟨?_, isResolved_foundUser, isResolved_or isResolved_foundUser isResolved_soleCeo, fun hflag => if_pos hflag,
    redundancyError_eq_nil h.2⟩
  dsimp only
  split
  · rfl
  · exact isResolved_foundUser

theorem readRow_ok {header : List String} {raw : List Cell} {v : RowValues}
    (h : readRow calendar header raw = .ok v) :
    strip v.personnelCode = v.personnelCode ∧ strip v.fullName = v.fullName ∧ strip v.jobTitle = v.jobTitle ∧
      strip v.orgUnit = v.orgUnit := by
  unfold readRow at h
  simp only [bind_eq_ok, pure_eq_ok] at h
  obtain ⟨start, -, stop, -, rfl⟩ := h
  exact ⟨strip_normaliseDigits (strip_cellText _), strip_cellText _, strip_cellText _, strip_joinSite _ _⟩

/-- A row without errors can be inserted, and is noted with its code and its login name. -/
theorem parseRow_accepted {header : List String} {number : Nat} {raw : List Cell} {row : CheckedRow} {seen' : Seen}
    (h : parseRow calendar db header seen number raw = .ok (row, seen')) (hok : row.errors = []) :
    ∃ r, row.toImport = some r ∧ Accepted db seen r ∧ r.status = row.status ∧
      seen'.codes = (r.fields.personnelCode, number) :: seen.codes ∧
      seen'.usernames = (r.username.map fun username => (username, number)).toList ++ seen.usernames := by
  unfold parseRow at h
  simp only [bind_eq_ok, pure_eq_ok] at h
  obtain ⟨v, hv, disorder, hdisorder, heq⟩ := h
  cases heq
  obtain ⟨hcodeText, hnameText, htitleText, hunitText⟩ := readRow_ok hv
  have herrors : v.errors db seen disorder = [] := hok
  unfold RowValues.errors at herrors
  simp only [List.append_eq_nil_iff, ite_eq_right_iff, List.cons_ne_self, imp_false, blankError_eq_nil] at herrors
  obtain ⟨⟨⟨⟨⟨⟨⟨⟨⟨⟨⟨⟨hcode, hname⟩, htitle⟩, hunit⟩, hfree⟩, -⟩, -⟩, hstart⟩, hstop⟩, horder⟩, husername⟩, -⟩,
    hchain⟩ := herrors
  obtain ⟨start, hstart⟩ := Option.ne_none_iff_exists'.mp hstart
  obtain ⟨stop, hstop⟩ := Option.ne_none_iff_exists'.mp hstop
  obtain ⟨hcodeFree, hcodeNew⟩ := codeErrors_eq_nil hcode hfree
  obtain ⟨hsupervisor, hdeputy, hceo, hmanager, hsupervisorTwice, hdeputyTwice⟩ := RowValues.chain_ok hchain
  rw [hstart, hstop, horder] at hdisorder
  refine ⟨_, by simp only [CheckedRow.toImport, RowValues.checked, hstart, hstop]; rfl, ?_, rfl, ?_, ?_⟩
  · constructor
    case texts => exact ⟨⟨hcodeText, hcode⟩, ⟨hnameText, hname⟩, ⟨htitleText, htitle⟩, ⟨hunitText, hunit⟩⟩
    case order =>
      unfold ImportRow.datesInOrder
      simpa using orderErrors_eq_nil hdisorder
    case code_free => exact hcodeFree
    case code_new => exact hcodeNew
    case username_free =>
      intro username haccepted
      obtain ⟨hne, rfl⟩ := acceptedText_eq_some haccepted
      exact (usernameErrors_eq_nil hne husername).1
    case username_new =>
      intro username haccepted
      obtain ⟨hne, rfl⟩ := acceptedText_eq_some haccepted
      exact (usernameErrors_eq_nil hne husername).2
    case supervisor => exact hsupervisor
    case deputy => exact hdeputy
    case ceo => exact hceo
    case manager => exact hmanager
    case single =>
      unfold ImportRow.isRedundant
      rw [Bool.or_eq_false_iff, Bool.and_eq_false_imp, Bool.and_eq_false_imp]
      refine ⟨fun hsome => ?_, fun hsome => ?_⟩
      · exact decide_eq_false fun heq => hsupervisorTwice ⟨hsome, heq⟩
      · exact decide_eq_false fun heq => hdeputyTwice ⟨hsome, heq⟩
  · simp [RowValues.noted, noteText, hfree, hcode]
  · by_cases hne : v.username = ""
    · simp [RowValues.noted, noteText, acceptedText, hne]
    · simp [RowValues.noted, noteText, acceptedText, husername, hne]

/-! ## The whole sheet -/

/-- The rows that are inserted. -/
def acceptedRows (rows : List CheckedRow) : List ImportRow :=
  (rows.filter CheckedRow.isOk).filterMap CheckedRow.toImport

/-- The rows above have been noted. -/
def Noted (seen : Seen) (above : List ImportRow) : Prop :=
  ∀ r ∈ above, r.fields.personnelCode ∈ seen.codes.map Prod.fst ∧
    ∀ username, r.username = some username → username ∈ seen.usernames.map Prod.fst

theorem Accepted.ok {row : ImportRow} {above : List ImportRow} (h : Accepted db seen row) (hnoted : Noted seen above) :
    row.ok db above = true := by
  have hmanager : (row.fields.isManager && row.unitSupervisorUserId.isSome) = false := by
    rw [Bool.and_eq_false_imp]
    intro hflag
    rw [h.manager hflag]
    rfl
  have hcodes : above.all (fun other => other.fields.personnelCode ≠ row.fields.personnelCode) = true := by
    rw [List.all_eq_true]
    intro other hother
    rw [decide_eq_true_eq]
    intro heq
    exact h.code_new (heq ▸ (hnoted other hother).1)
  have hnames : row.username.all (fun username => db.users.rows.all (fun u => u.username ≠ username) &&
      above.all fun other => other.username ≠ some username) = true := by
    rw [Option.all_eq_true]
    intro username haccepted
    rw [Bool.and_eq_true, List.all_eq_true, List.all_eq_true]
    refine ⟨fun u hu => decide_eq_true (h.username_free username haccepted u hu), fun other hother => ?_⟩
    rw [decide_eq_true_eq]
    intro heq
    exact h.username_new username haccepted ((hnoted other hother).2 username heq)
  have hfree : db.personnel.rows.all (fun person => person.personnelCode ≠ row.fields.personnelCode) = true := by
    rw [List.all_eq_true]
    exact fun person hperson => decide_eq_true (h.code_free person hperson)
  unfold ImportRow.ok
  rw [hfree, hcodes, hnames, h.supervisor, h.deputy, h.ceo, hmanager, h.single]
  simp [h.texts.code.2, h.texts.name.2, h.texts.title.2, h.texts.unit.2, h.order]

theorem mem_noteText {errors : List String} {value : String} {number : Nat} {above : List (String × Nat)}
    {entry : String × Nat} (h : entry ∈ above) : entry ∈ noteText errors value number above := by
  unfold noteText
  split
  · exact List.mem_cons_of_mem _ h
  · exact h

theorem mem_noted {errors : List String} {value key : String} {number : Nat} {above : List (String × Nat)}
    (h : key ∈ above.map Prod.fst) : key ∈ (noteText errors value number above).map Prod.fst := by
  obtain ⟨entry, hentry, hfst⟩ := List.mem_map.mp h
  exact List.mem_map.mpr ⟨entry, mem_noteText hentry, hfst⟩

/-- Nothing that was noted is forgotten. -/
theorem parseRow_seen {header : List String} {number : Nat} {raw : List Cell} {row : CheckedRow} {seen' : Seen}
    (h : parseRow calendar db header seen number raw = .ok (row, seen')) :
    (∀ code ∈ seen.codes.map Prod.fst, code ∈ seen'.codes.map Prod.fst) ∧
      ∀ username ∈ seen.usernames.map Prod.fst, username ∈ seen'.usernames.map Prod.fst := by
  unfold parseRow at h
  simp only [bind_eq_ok, pure_eq_ok] at h
  obtain ⟨v, -, disorder, -, heq⟩ := h
  cases heq
  exact ⟨fun code hcode => mem_noted hcode, fun username husername => mem_noted husername⟩

theorem parseRow_keeps {header : List String} {number : Nat} {raw : List Cell} {row : CheckedRow} {seen' : Seen}
    (h : parseRow calendar db header seen number raw = .ok (row, seen')) {above : List ImportRow}
    (hnoted : Noted seen above) : Noted seen' above := by
  obtain ⟨hcodes, husernames⟩ := parseRow_seen h
  intro r hr
  obtain ⟨hcode, husername⟩ := hnoted r hr
  exact ⟨hcodes _ hcode, fun username hgiven => husernames _ (husername username hgiven)⟩

theorem acceptedRows_cons {row : CheckedRow} {rows : List CheckedRow} :
    acceptedRows (row :: rows) =
      (if row.errors = [] then row.toImport.toList else []) ++ acceptedRows rows := by
  unfold acceptedRows
  by_cases hok : row.errors = []
  · cases himport : row.toImport <;> simp [CheckedRow.isOk, hok, himport]
  · simp [CheckedRow.isOk, hok]

/-- The directory accepts exactly what the reading accepts, whatever was noted above. -/
theorem validRows_accepted {header : List String} {number : Nat} {body : List (List Cell)} {rows : List CheckedRow}
    (h : parseRows calendar db header seen number body = .ok rows) {above : List ImportRow}
    (hnoted : Noted seen above) : validRows db above (acceptedRows rows) = acceptedRows rows := by
  induction body generalizing seen number rows above with
  | nil =>
    cases h
    rfl
  | cons raw body ih =>
    unfold parseRows at h
    split at h
    · exact ih h hnoted
    · simp only [bind_eq_ok, pure_eq_ok] at h
      obtain ⟨⟨row, seen'⟩, hrow, rest, hrest, rfl⟩ := h
      rw [acceptedRows_cons]
      split
      · next hok =>
        obtain ⟨r, himport, haccepted, -, hcodes, hnames⟩ := parseRow_accepted hrow hok
        have hbelow : Noted seen' (r :: above) := by
          intro other hother
          rcases List.mem_cons.mp hother with rfl | hother
          · rw [hcodes, hnames]
            exact ⟨by simp, fun username hgiven => by simp [hgiven]⟩
          · exact parseRow_keeps hrow hnoted other hother
        rw [himport, Option.toList_some, List.singleton_append, validRows, if_pos (haccepted.ok hnoted),
          ih hrest hbelow]
      · exact ih hrest (parseRow_keeps hrow hnoted)

theorem Accepted.above {seen' : Seen} {row : ImportRow} (h : Accepted db seen' row)
    (hcodes : ∀ code ∈ seen.codes.map Prod.fst, code ∈ seen'.codes.map Prod.fst)
    (husernames : ∀ username ∈ seen.usernames.map Prod.fst, username ∈ seen'.usernames.map Prod.fst) :
    Accepted db seen row :=
  { h with
    code_new := fun hmem => h.code_new (hcodes _ hmem)
    username_new := fun username hgiven hmem => h.username_new username hgiven (husernames _ hmem) }

/-- Every row that is inserted was accepted, from a row of the report. -/
theorem mem_acceptedRows {header : List String} {number : Nat} {body : List (List Cell)} {rows : List CheckedRow}
    (h : parseRows calendar db header seen number body = .ok rows) {r : ImportRow} (hr : r ∈ acceptedRows rows) :
    Accepted db seen r := by
  induction body generalizing seen number rows with
  | nil =>
    cases h
    cases hr
  | cons raw body ih =>
    unfold parseRows at h
    split at h
    · exact ih h hr
    · simp only [bind_eq_ok, pure_eq_ok] at h
      obtain ⟨⟨row, seen'⟩, hrow, rest, hrest, rfl⟩ := h
      rw [acceptedRows_cons, List.mem_append] at hr
      rcases hr with hfirst | hlater
      · split at hfirst
        · next hok =>
          obtain ⟨r', himport, haccepted, -⟩ := parseRow_accepted hrow hok
          rw [himport, Option.toList_some, List.mem_singleton] at hfirst
          exact hfirst ▸ haccepted
        · cases hfirst
      · obtain ⟨hcodes, husernames⟩ := parseRow_seen hrow
        exact (ih hrest hlater).above hcodes husernames

/-- No two of the rows that are inserted have one code or one login name. -/
theorem acceptedRows_distinct {header : List String} {number : Nat} {body : List (List Cell)}
    {rows : List CheckedRow} (h : parseRows calendar db header seen number body = .ok rows) :
    ((acceptedRows rows).map fun r => r.fields.personnelCode).Nodup ∧
      ((acceptedRows rows).filterMap ImportRow.username).Nodup := by
  induction body generalizing seen number rows with
  | nil =>
    cases h
    exact ⟨List.nodup_nil, List.nodup_nil⟩
  | cons raw body ih =>
    unfold parseRows at h
    split at h
    · exact ih h
    · simp only [bind_eq_ok, pure_eq_ok] at h
      obtain ⟨⟨row, seen'⟩, hrow, rest, hrest, rfl⟩ := h
      obtain ⟨hcodes, husernames⟩ := ih hrest
      rw [acceptedRows_cons]
      split
      · next hok =>
        obtain ⟨r, himport, -, -, hnoted, hnotedNames⟩ := parseRow_accepted hrow hok
        rw [himport, Option.toList_some, List.singleton_append, List.map_cons, List.nodup_cons]
        refine ⟨⟨?_, hcodes⟩, ?_⟩
        · intro hmem
          obtain ⟨other, hother, heq⟩ := List.mem_map.mp hmem
          refine (mem_acceptedRows hrest hother).code_new ?_
          rw [hnoted, heq]
          exact List.mem_cons_self
        · cases hgiven : r.username with
          | none =>
            rw [List.filterMap_cons_none hgiven]
            exact husernames
          | some username =>
            rw [List.filterMap_cons_some hgiven, List.nodup_cons]
            refine ⟨?_, husernames⟩
            intro hmem
            obtain ⟨other, hother, heq⟩ := List.mem_filterMap.mp hmem
            refine (mem_acceptedRows hrest hother).username_new username heq ?_
            rw [hnotedNames, hgiven]
            exact List.mem_cons_self
      · exact ⟨hcodes, husernames⟩

/-! ## What the cells of a row say of its chain -/

/-- What the row of a number says of a seat. -/
def writtenAt (sheet : List (List Cell)) (number : Nat) (seat : ChainSeat) : String :=
  cellText (cellAt ((sheet.headD []).map cellText) (sheet.getD (number - 1) []) (chainColumn seat))

/-- `said` gives, for the rows of a body from a number on, what is written for each seat. -/
def Says (header : List String) (said : Nat → ChainSeat → String) (number : Nat) (body : List (List Cell)) : Prop :=
  ∀ i raw, body[i]? = some raw → said (number + i) = fun seat => cellText (cellAt header raw (chainColumn seat))

namespace CheckedRow

/-- The chain that the row's own name and flag make of what is written for its seats. -/
def resolved (db : Database) (said : Nat → ChainSeat → String) (row : CheckedRow) : ResolvedChain :=
  resolveChain db row.fullName row.isManager (said row.rowNumber)

/-- Nothing but the chain of the row can be wrong. -/
def OnlyChain (db : Database) (said : Nat → ChainSeat → String) (row : CheckedRow) : Prop :=
  row.errors = (row.resolved db said).errors

end CheckedRow

section

variable {header : List String} {said : Nat → ChainSeat → String} {number : Nat} {raw : List Cell}
  {body : List (List Cell)} {row row' : CheckedRow} {rows : List CheckedRow} {seen' : Seen}

theorem Says.tail (h : Says header said number (raw :: body)) : Says header said (number + 1) body := by
  intro i raw' hraw
  have hthere := h (i + 1) raw' (by rw [List.getElem?_cons_succ, hraw])
  rw [← hthere]
  congr 1
  omega

theorem Says.head (h : Says header said number (raw :: body)) :
    said number = fun seat => cellText (cellAt header raw (chainColumn seat)) := h 0 raw rfl

/-- A row of the report: its seats are those of its chain, and its errors end with those of the chain. -/
theorem parseRow_resolved (h : parseRow calendar db header seen number raw = .ok (row, seen'))
    (hsaid : said number = fun seat => cellText (cellAt header raw (chainColumn seat))) :
    row.unitSupervisorUserId = (row.resolved db said).unitSupervisorUserId ∧
      row.deputyUserId = (row.resolved db said).deputyUserId ∧ row.ceoUserId = (row.resolved db said).ceoUserId ∧
      (row.errors = [] → (row.resolved db said).errors = []) ∧
      (row.OnlyChain db said → row.personnelCode ∉ seen.codes.map Prod.fst ∧
        row.personnelCode ∈ seen'.codes.map Prod.fst ∧ row.fullName ≠ "" ∧ ∃ r, row.toImport = some r) := by
  unfold parseRow at h
  simp only [bind_eq_ok, pure_eq_ok] at h
  obtain ⟨v, hv, disorder, hdisorder, heq⟩ := h
  cases heq
  have hwritten : v.written = said number := by
    unfold readRow at hv
    simp only [bind_eq_ok, pure_eq_ok] at hv
    obtain ⟨start, -, stop, -, rfl⟩ := hv
    exact hsaid.symm
  have hchain : (v.checked db seen number disorder).resolved db said = v.chain db := by
    unfold CheckedRow.resolved RowValues.chain RowValues.checked
    rw [hwritten]
  have herrors : (v.checked db seen number disorder).errors = v.errors db seen disorder := rfl
  unfold CheckedRow.OnlyChain
  rw [hchain, herrors]
  refine ⟨rfl, rfl, rfl, ?_, ?_⟩
  · intro hnone
    unfold RowValues.errors at hnone
    exact (List.append_eq_nil_iff.mp hnone).2
  · intro honly
    unfold RowValues.errors at honly
    rw [List.append_left_eq_self] at honly
    simp only [List.append_eq_nil_iff, ite_eq_right_iff, List.cons_ne_self, imp_false, blankError_eq_nil] at honly
    obtain ⟨⟨⟨⟨⟨⟨⟨⟨⟨⟨⟨hcode, hname⟩, -⟩, -⟩, hfree⟩, -⟩, -⟩, hstart⟩, hstop⟩, -⟩, -⟩, -⟩ := honly
    obtain ⟨start, hstart⟩ := Option.ne_none_iff_exists'.mp hstart
    obtain ⟨stop, hstop⟩ := Option.ne_none_iff_exists'.mp hstop
    refine ⟨(codeErrors_eq_nil hcode hfree).2, ?_, hname, ?_⟩
    · simp [RowValues.noted, RowValues.checked, noteText, hfree, hcode]
    · simp [CheckedRow.toImport, RowValues.checked, hstart, hstop]

/-- The seats of every row of a report are those of its chain. -/
theorem parseRows_resolved (h : parseRows calendar db header seen number body = .ok rows)
    (hsaid : Says header said number body) (hrow : row ∈ rows) :
    row.unitSupervisorUserId = (row.resolved db said).unitSupervisorUserId ∧
      row.deputyUserId = (row.resolved db said).deputyUserId ∧ row.ceoUserId = (row.resolved db said).ceoUserId ∧
      (row.errors = [] → row.OnlyChain db said) ∧
      (row.OnlyChain db said → row.fullName ≠ "" ∧ ∃ r, row.toImport = some r) := by
  induction body generalizing seen number rows with
  | nil =>
    cases h
    cases hrow
  | cons raw body ih =>
    unfold parseRows at h
    split at h
    · exact ih h hsaid.tail hrow
    · simp only [bind_eq_ok, pure_eq_ok] at h
      obtain ⟨⟨first, seen'⟩, hfirst, rest, hrest, rfl⟩ := h
      rcases List.mem_cons.mp hrow with rfl | hrow
      · obtain ⟨hsupervisor, hdeputy, hceo, hok, honly⟩ := parseRow_resolved hfirst hsaid.head
        refine ⟨hsupervisor, hdeputy, hceo, fun hnone => hnone.trans (hok hnone).symm, fun h => (honly h).2.2⟩
      · exact ih hrest hsaid.tail hrow

theorem parseRows_code_new (h : parseRows calendar db header seen number body = .ok rows)
    (hsaid : Says header said number body) (hrow : row ∈ rows) (honly : row.OnlyChain db said) :
    row.personnelCode ∉ seen.codes.map Prod.fst := by
  induction body generalizing seen number rows with
  | nil =>
    cases h
    cases hrow
  | cons raw body ih =>
    unfold parseRows at h
    split at h
    · exact ih h hsaid.tail hrow
    · simp only [bind_eq_ok, pure_eq_ok] at h
      obtain ⟨⟨first, seen'⟩, hfirst, rest, hrest, rfl⟩ := h
      rcases List.mem_cons.mp hrow with rfl | hrow
      · exact ((parseRow_resolved hfirst hsaid.head).2.2.2.2 honly).1
      · exact fun hmem => ih hrest hsaid.tail hrow ((parseRow_seen hfirst).1 _ hmem)

/-- Of the rows of a report with at most their chain at fault, no two have one code. -/
theorem eq_of_code_eq (h : parseRows calendar db header seen number body = .ok rows)
    (hsaid : Says header said number body) (hrow : row ∈ rows) (honly : row.OnlyChain db said) (hrow' : row' ∈ rows)
    (honly' : row'.OnlyChain db said) (hcode : row.personnelCode = row'.personnelCode) : row = row' := by
  induction body generalizing seen number rows with
  | nil =>
    cases h
    cases hrow
  | cons raw body ih =>
    unfold parseRows at h
    split at h
    · exact ih h hsaid.tail hrow hrow'
    · simp only [bind_eq_ok, pure_eq_ok] at h
      obtain ⟨⟨first, seen'⟩, hfirst, rest, hrest, rfl⟩ := h
      have hnoted : ∀ other ∈ rest, other.OnlyChain db said → first.OnlyChain db said →
          other.personnelCode ≠ first.personnelCode := by
        intro other hother hfault hfault' heq
        refine parseRows_code_new hrest hsaid.tail hother hfault ?_
        rw [heq]
        exact ((parseRow_resolved hfirst hsaid.head).2.2.2.2 hfault').2.1
      rcases List.mem_cons.mp hrow with rfl | hbelow
      · rcases List.mem_cons.mp hrow' with rfl | hbelow'
        · rfl
        · exact absurd hcode.symm (hnoted _ hbelow' honly' honly)
      · rcases List.mem_cons.mp hrow' with rfl | hbelow'
        · exact absurd hcode (hnoted _ hbelow honly honly')
        · exact ih hrest hsaid.tail hbelow hbelow'

end

/-- The rows of a report come from the rows of a sheet, below the first. -/
theorem parseWorkbook_rows {sheet : Option (List (List Cell))} {preview : ImportPreview}
    (h : parseWorkbook calendar db sheet = .ok preview) :
    ∃ header body, parseRows calendar db header ⟨[], []⟩ 2 body = .ok preview.rows ∧
      Says header (writtenAt (sheet.getD [])) 2 body := by
  have hnone : parseRows calendar db [] ⟨[], []⟩ 2 [] = .ok [] := rfl
  have hsaid : ∀ said, Says [] said 2 [] := by
    intro said i raw hraw
    cases hraw
  unfold parseWorkbook at h
  split at h
  · cases h
    exact ⟨[], [], hnone, hsaid _⟩
  · cases h
    exact ⟨[], [], hnone, hsaid _⟩
  · cases h
    exact ⟨[], [], hnone, hsaid _⟩
  · next first body _ =>
    dsimp only at h
    split at h
    · cases h
      exact ⟨[], [], hnone, hsaid _⟩
    · rw [bind_eq_ok] at h
      obtain ⟨rows, hrows, h⟩ := h
      have hbody : Says (first.map cellText) (writtenAt (first :: body)) 2 body := by
        intro i raw hraw
        have hrow : (first :: body).getD (2 + i - 1) [] = raw := by
          rw [show 2 + i - 1 = i + 1 by omega, List.getD_cons_succ, List.getD_eq_getElem?_getD, hraw]
          rfl
        funext seat
        unfold writtenAt
        rw [hrow]
        rfl
      split at h
      · cases h
        exact ⟨[], [], hnone, hsaid _⟩
      · cases h
        exact ⟨_, body, hrows, hbody⟩

/-- A row without a code, which no import accepts. -/
def unusableRow : ImportRow := ⟨⟨"", "", "", false, "", 0, 0⟩, .active, none, none, none, none, 0, 0⟩

theorem validRows_unusableRow : validRows db [] [unusableRow] = [] := by
  have hcode : unusableRow.ok db [] = false := by
    unfold ImportRow.ok
    simp [unusableRow]
  unfold validRows
  rw [hcode]
  rfl

/-- The import of a file is an import of the directory. -/
theorem commitImport_refines {sheet : Option (List (List Cell))} {preview : ImportPreview} {env : Env}
    {user : CurrentUser} {db' : Database} (hauth : user.role = .hr ∨ .managePersonnel ∈ env.capabilities)
    (hpreview : parseWorkbook calendar db sheet = .ok preview) (h : commitImport db env user preview = .ok db') :
    ∃ rows, importPersonnel db env user rows = .ok db' := by
  obtain ⟨header, body, hrows, -⟩ := parseWorkbook_rows hpreview
  have hnoted : Noted ⟨[], []⟩ [] := fun r hr => absurd hr List.not_mem_nil
  have hvalid := validRows_accepted hrows hnoted
  unfold commitImport at h
  simp only [bind_eq_ok, pure_eq_ok] at h
  obtain ⟨-, -, rfl⟩ := h
  unfold importPersonnel requireRoleOrCapability
  simp only [bind_eq_ok, pure_eq_ok, ensure_eq_ok]
  by_cases hnone : acceptedRows preview.rows = []
  · refine ⟨[unusableRow], (), hauth, (), List.cons_ne_nil _ _, ?_⟩
    rw [validRows_unusableRow, ← hnone]
    rfl
  · refine ⟨acceptedRows preview.rows, (), hauth, (), hnone, ?_⟩
    rw [hvalid]
    rfl

end

end NexaHR
