import NexaHR.Properties.EndpointUrl
import NexaHR.Properties.Reachability

/-! # Changing the name of the database

The launcher reads the address from the settings file, changes the name, writes the address back and reads it again.

* `keepsConnection_iff`: user, password, host, port and options survive for a plain host without options.
* `othersUnchanged`: every other key keeps its value.
* `InFull`: an address in which the reachability check finds the host and the port; `reportsSame_iff`.
* `changing_database_keeps_iff`: the three together.
-/

namespace NexaHR

open Foundations

set_option autoImplicit false

variable {lib : UrlLibrary} {e : Endpoint} {u : SplitUrl} {text name : List Char}

/-! ## The three promises -/

/-- User, password, host, port and options are the same after the name has been changed. -/
def KeepsConnection (lib : UrlLibrary) (text name : List Char) : Prop :=
  ∃ e e', currentEndpoint lib text = .ok e ∧ currentEndpoint lib (applyEndpoint text (e.withName name)) = .ok e' ∧
    (e'.user = e.user ∧ e'.password = e.password ∧ e'.host = e.host ∧ e'.port = e.port) ∧
    connectionOptions lib (readSetting (applyEndpoint text (e.withName name)) databaseUrl) =
      connectionOptions lib (readSetting text databaseUrl)

/-- Every other key has its value. -/
def OthersUnchanged (lib : UrlLibrary) (text name : List Char) : Prop :=
  ∀ e key, currentEndpoint lib text = .ok e → databaseUrl ≠ key →
    readSetting (applyEndpoint text (e.withName name)) key = readSetting text key

/-- The reachability check reports the host and the port that the launcher connects to. -/
def ReportsSame (lib : UrlLibrary) (text : List Char) : Prop :=
  ∃ e, currentEndpoint lib text = .ok e ∧ databaseEndpoint text = (e.host, e.port)

/-- The host is written without colons and brackets. -/
def PlainHost (u : SplitUrl) : Prop := ':' ∉ u.hostPort.1 ∧ '[' ∉ u.hostPort.1 ∧ ']' ∉ u.hostPort.1

/-- What stands behind the first colon. -/
def afterScheme (word : List Char) : List Char := (partition ':' word).2

/-- What stands behind user, host and port. -/
def behindNetloc (word : List Char) : List Char := (splitNetloc (afterScheme word)).2

/-- The word reaches to the slash of the path. -/
def SlashInWord (word : List Char) : Prop := ['/', '/'] <+: afterScheme word ∧ ['/'] <+: behindNetloc word

namespace SplitUrl

/-- The text of the host, up to a colon. -/
def writtenHost (u : SplitUrl) : List Char := u.hostinfo.takeWhile (· ≠ ':')

def readHost (lib : UrlLibrary) (u : SplitUrl) : List Char := orElse (smallHost lib u.hostPort.1) localhost

end SplitUrl

/-- A user, a host that is read as it is written, and a port other than 0 or no colon for it. -/
structure InFull (lib : UrlLibrary) (u : SplitUrl) : Prop where
  user : '@' ∈ u.netloc
  host : u.writtenHost ≠ []
  asRead : u.readHost lib = u.writtenHost
  port : ':' ∉ u.hostinfo ∨ ('[' ∉ u.hostinfo ∧ ∃ n, n ≠ 0 ∧ u.port = some (some n))

/-- The local host and the usual port. -/
structure OnDefaults (lib : UrlLibrary) (u : SplitUrl) : Prop where
  host : u.readHost lib = localhost
  port : u.port = some none ∨ u.port = some (some 0) ∨ u.port = some (some defaultPort)

/-- The first key that the pattern sees has the word with which the value begins. -/
def KeyInSight (text : List Char) : Prop := Checked text (firstWord (readSetting text databaseUrl))

/-- No host and port stand in the word that the pattern sees. -/
def FindsNothing (text : List Char) : Prop := ∀ word, Checked text word → NoSite word

/-- The host and the port are found, but behind another key, or behind those of the address. -/
structure FoundElsewhere (text : List Char) (e : Endpoint) : Prop where
  found : ∃ word, Checked text word ∧ FirstSite word (e.host, e.port)
  behind : KeyInSight text → FirstSite (behindNetloc (firstWord (readSetting text databaseUrl))) (e.host, e.port)

/-! ## What is written to the file -/

theorem properKey_databaseUrl : ProperKey databaseUrl where
  ne_nil := by decide
  trimmed := ⟨by decide, by decide⟩
  plain := List.all_iff_forall_prop.mp (by decide)
  noComment := by decide

theorem trimmed_of_solid {l : List Char} (h : ∀ c ∈ l, isSpace c = false) : Trimmed isSpace l where
  first := by
    rw [List.dropWhile_eq_self_iff]
    intro hpos
    simp [h _ (List.getElem_mem hpos)]
  last := by
    rw [List.rdropWhile_eq_self_iff]
    intro hne
    simp [h _ (List.getLast_mem hne)]

theorem properValue_url (he : Readable lib e) : ProperValue e.url where
  trimmed := by
    have hlast : Trimmed isSpace ('/' :: quote e.name) := by
      apply trimmed_of_solid
      intro c hc
      cases List.mem_cons.mp hc with
      | inl heq =>
        rw [heq]
        decide
      | inr hmem => exact (urlChar_clean (isUrlChar_quote hmem)).2.2.2
    have hboth := (⟨by decide, by decide⟩ : Trimmed isSpace schemeText).append hlast (by decide) (List.cons_ne_nil _ _)
      (':' :: '/' :: '/' :: e.netloc)
    exact hboth
  oneLine := by
    intro c hc
    cases Endpoint.mem_url hc with
    | inl hhost => exact (he.clean c hhost).2.1
    | inr hplain => exact (urlChar_clean hplain).2.1

theorem readSetting_oneLine {key : List Char} : ∀ c ∈ readSetting text key, isLineBreak c = false := by
  have hall : ∀ lines : List (List Char), (∀ l ∈ lines, ∀ c ∈ l, isLineBreak c = false) →
      ∀ c ∈ valueAt key lines, isLineBreak c = false := by
    intro lines
    induction lines with
    | nil =>
      intro _ c hc
      cases hc
    | cons line lines ih =>
      intro hlines c hc
      unfold valueAt at hc
      split at hc
      · next hfound =>
        obtain ⟨before, blanks, rest, hline, hvalue, _⟩ := keyValue_shape (keyValue_of_hasKey hfound)
        rw [hvalue] at hc
        apply hlines line (List.mem_cons_self ..)
        rw [hline]
        simp [(trim_part rest).subset hc]
      · exact ih (fun l hl => hlines l (List.mem_cons_of_mem _ hl)) c hc
  exact hall _ (splitLines_break text)

theorem currentEndpoint_of_parse (h : Endpoint.parse lib (readSetting text databaseUrl) = .ok (some e)) :
    currentEndpoint lib text = .ok e := by
  unfold currentEndpoint
  rw [h]
  rfl

/-- What is read after the address has been written. -/
theorem currentEndpoint_apply (he : Readable lib e) :
    currentEndpoint lib (applyEndpoint text e) =
      if '[' ∈ e.host ∨ ']' ∈ e.host then .error .brackets
      else if ':' ∈ e.host then .ok {}
      else .ok { e with name := orElse e.name defaultName } := by
  unfold currentEndpoint applyEndpoint
  rw [readSetting_write_self properKey_databaseUrl (properValue_url he), Endpoint.parse_url he]
  split
  · rfl
  split
  · rfl
  · rfl

theorem Readable.withName (he : Readable lib e) (name : List Char) : Readable lib (e.withName name) :=
  { user := he.user, host := he.host, port := he.port, stays := he.stays, noAt := he.noAt, clean := he.clean,
    small := he.small, unpaired := he.unpaired }

/-! ## The connection -/

/-- A mark is in the host that is read where it is in the written one. -/
theorem mem_host_iff (hsplit : urlsplit lib (readSetting text databaseUrl) = .ok u)
    (hparse : Endpoint.parse lib (readSetting text databaseUrl) = .ok (some e)) {c : Char} (hc : isSteady c = true)
    (hlocal : c ∉ localhost) : c ∈ e.host ↔ c ∈ u.hostPort.1 := by
  obtain ⟨_, _, _, _, _, hhost, _⟩ := parse_spec hsplit hparse
  unfold SplitUrl.hostname at hhost
  rw [← @mem_smallHost lib u.hostPort.1 c hc, hhost]
  split
  · next hnil =>
    rw [hnil, mem_smallHost hc]
    simpa [orElse] using hlocal
  · rw [Option.getD_some]
    unfold orElse
    split
    · next hnil => simpa [hnil] using hlocal
    · rfl

theorem connectionOptions_url (he : Readable lib e) : connectionOptions lib e.url = [] := by
  unfold connectionOptions
  rw [Endpoint.urlsplit_url he]
  by_cases hbracket : '[' ∈ e.host ∨ ']' ∈ e.host
  · rw [if_pos hbracket]
  · rw [if_neg hbracket]
    rfl

/-- The connection is kept exactly for a plain host without options. -/
theorem keepsConnection_iff (hsplit : urlsplit lib (readSetting text databaseUrl) = .ok u)
    (hparse : Endpoint.parse lib (readSetting text databaseUrl) = .ok (some e)) :
    KeepsConnection lib text name ↔ u.query = [] ∧ PlainHost u := by
  have he := (parse_readable readSetting_oneLine hsplit hparse).withName name
  have hread := currentEndpoint_of_parse hparse
  have hcolon : ':' ∈ e.host ↔ ':' ∈ u.hostPort.1 := mem_host_iff hsplit hparse (by decide) (by decide)
  have hopen : '[' ∈ e.host ↔ '[' ∈ u.hostPort.1 := mem_host_iff hsplit hparse (by decide) (by decide)
  have hclose : ']' ∈ e.host ↔ ']' ∈ u.hostPort.1 := mem_host_iff hsplit hparse (by decide) (by decide)
  have hoptions : connectionOptions lib (readSetting text databaseUrl) = u.query := by
    unfold connectionOptions
    rw [hsplit]
  have hlost : connectionOptions lib (readSetting (applyEndpoint text (e.withName name)) databaseUrl) = [] := by
    unfold applyEndpoint
    rw [readSetting_write_self properKey_databaseUrl (properValue_url he), connectionOptions_url he]
  have hafter := @currentEndpoint_apply _ _ text he
  have hhost : (e.withName name).host = e.host := rfl
  rw [hhost] at hafter
  unfold PlainHost
  rw [← hcolon, ← hopen, ← hclose]
  constructor
  · rintro ⟨e₁, e', hfirst, hsecond, hsame, hquery⟩
    rw [hread] at hfirst
    cases hfirst
    rw [hlost, hoptions] at hquery
    rw [hafter] at hsecond
    split at hsecond
    · cases hsecond
    · next hbracket =>
      rw [not_or] at hbracket
      split at hsecond
      · next hmem =>
        cases hsecond
        rw [← hsame.2.2.1] at hmem
        exact absurd hmem (by decide)
      · next hplain => exact ⟨hquery.symm, hplain, hbracket⟩
  · rintro ⟨hquery, hplain, hbracket⟩
    rw [if_neg (not_or.mpr hbracket), if_neg hplain] at hafter
    exact ⟨e, _, hread, hafter, ⟨rfl, rfl, rfl, rfl⟩, by rw [hlost, hoptions, hquery]⟩

/-- Every other key keeps its value. -/
theorem othersUnchanged (hsplit : urlsplit lib (readSetting text databaseUrl) = .ok u)
    (hparse : Endpoint.parse lib (readSetting text databaseUrl) = .ok (some e)) : OthersUnchanged lib text name := by
  intro e₁ key hfirst hne
  rw [currentEndpoint_of_parse hparse] at hfirst
  cases hfirst
  have he := (parse_readable readSetting_oneLine hsplit hparse).withName name
  exact readSetting_write_ne properKey_databaseUrl (properValue_url he) hne

/-! ## The reachability check -/

theorem rpartition_eq {c : Char} {l : List Char} (h : c ∈ l) :
    l = (rpartition c l).1 ++ c :: (rpartition c l).2 ∧ c ∉ (rpartition c l).2 := by
  obtain ⟨first, last, hreverse, hfirst⟩ := List.eq_append_cons_of_mem (List.mem_reverse.mpr h)
  have hl : l = last.reverse ++ c :: first.reverse := by
    rw [← List.reverse_reverse l, hreverse]
    simp
  have hlast : c ∉ first.reverse := by simpa using hfirst
  rw [hl, Endpoint.rpartition_append hlast]
  exact ⟨rfl, hlast⟩

theorem scheme_shape {l : List Char} (hne : (splitScheme l).1 ≠ []) :
    ∃ written, l = written ++ ':' :: (splitScheme l).2 ∧ '@' ∉ written ∧ ':' ∉ written := by
  unfold splitScheme at hne ⊢
  cases hscheme : writtenScheme l with
  | none =>
    rw [hscheme] at hne
    exact absurd rfl hne
  | some found =>
    rw [Option.getD_some]
    unfold writtenScheme at hscheme
    split at hscheme
    · cases hscheme
    · next c rest =>
      split at hscheme
      · next halpha =>
        split at hscheme
        · next after hafter =>
          cases hscheme
          have hout : ∀ d, d.isAlpha = false → isSchemeChar d = false → d ∉ c :: rest.takeWhile isSchemeChar := by
            intro d hletter hscheme hmem
            cases List.mem_cons.mp hmem with
            | inl heq =>
              rw [← heq, hletter] at halpha
              cases halpha
            | inr hlater =>
              rw [List.mem_takeWhile_imp hlater] at hscheme
              cases hscheme
          refine ⟨c :: rest.takeWhile isSchemeChar, ?_, hout '@' (by decide) (by decide),
            hout ':' (by decide) (by decide)⟩
          rw [List.cons_append, ← hafter, List.takeWhile_append_dropWhile]
        · cases hscheme
      · cases hscheme

theorem not_mem_lead {p : Char → Bool} {d : Char} {word : List Char} (hd : p d = false) : d ∉ word.takeWhile p := by
  intro hmem
  rw [List.mem_takeWhile_imp hmem] at hd
  cases hd

/-- A beginning without the mark ends before the mark. -/
theorem prefix_of_not_mem {c : Char} {l written rest : List Char} (h : l <+: written ++ c :: rest) (hc : c ∉ l) :
    l <+: written := by
  rcases List.prefix_or_prefix_of_prefix h (List.prefix_append _ _) with hbefore | ⟨more, rfl⟩
  · exact hbefore
  · cases more with
    | nil => rw [List.append_nil]
    | cons d more =>
      rw [List.prefix_append_right_inj, List.cons_prefix_cons] at h
      rw [h.1] at hc
      exact absurd (by simp) hc

/-- Of a word without blanks nothing but its lead is stripped. -/
theorem stripped_word {word tail : List Char} (hsolid : ∀ c ∈ word, isSpace c = false)
    (hne : word.dropWhile isC0OrSpace ≠ []) :
    stripped (word ++ tail) = word.dropWhile isC0OrSpace ++ tail.filter fun c => !isTabOrNewline c := by
  have hkept : ∀ c ∈ word, (!isTabOrNewline c) = true := by
    intro c hc
    have hspace := hsolid c hc
    have hout : ∀ d : Char, isSpace d = true → c ≠ d := by
      intro d hd heq
      rw [heq, hd] at hspace
      cases hspace
    simp [isTabOrNewline, hout '\t' (by decide), hout '\n' (by decide), hout '\r' (by decide)]
  unfold stripped
  rw [List.dropWhile_append, if_neg (by simpa using hne), List.filter_append,
    List.filter_eq_self.mpr fun c hc => hkept c ((List.dropWhile_suffix _).subset hc)]

/-- The first colon of the address, where it stands in the word. -/
theorem afterScheme_word {word written rest tail : List Char}
    (h : word.dropWhile isC0OrSpace ++ tail = written ++ ':' :: rest) (hcolon : ':' ∉ written)
    (hmem : ':' ∈ word.dropWhile isC0OrSpace) :
    word = (word.takeWhile isC0OrSpace ++ written) ++ ':' :: afterScheme word ∧ rest = afterScheme word ++ tail := by
  obtain ⟨first, after, hword, hfirst⟩ := List.eq_append_cons_of_mem hmem
  have hparts : (written, rest) = (first, after ++ tail) := by
    rw [← partition_append hcolon, ← h, hword, List.append_assoc]
    exact partition_append hfirst
  cases hparts
  have hbefore : ':' ∉ word.takeWhile isC0OrSpace ++ written := by
    rw [List.mem_append, not_or]
    exact ⟨not_mem_lead (by decide), hfirst⟩
  have hcut : word = (word.takeWhile isC0OrSpace ++ written) ++ ':' :: after := by
    rw [List.append_assoc, ← hword, List.takeWhile_append_dropWhile]
  have hafter : afterScheme word = after := by
    unfold afterScheme
    conv_lhs => rw [hcut]
    rw [partition_append hbefore]
  rw [hafter]
  exact ⟨hcut, rfl⟩

/-- The written scheme stands at the first colon of the word, if it reaches that far. -/
theorem word_scheme {url : List Char} (hsplit : urlsplit lib url = .ok u)
    (hparse : Endpoint.parse lib url = .ok (some e)) :
    ('@' ∉ firstWord url ∧ afterScheme (firstWord url) = []) ∨
      ∃ before more, firstWord url = before ++ ':' :: afterScheme (firstWord url) ∧ '@' ∉ before ∧
        (splitScheme (stripped url)).2 = afterScheme (firstWord url) ++ more := by
  obtain ⟨_, _, hscheme, _⟩ := parse_spec hsplit hparse
  obtain ⟨hname, _, _, _⟩ := urlsplit_spec hsplit
  obtain ⟨tail, hurl, _⟩ := firstWord_split url
  have hsolid : ∀ c ∈ firstWord url, isSpace c = false := firstWord_solid
  generalize firstWord url = word at hurl hsolid
  have hne : (splitScheme (stripped url)).1 ≠ [] := by
    rw [← hname]
    intro hnil
    rw [hnil] at hscheme
    exact absurd (List.prefix_nil.mp hscheme) (by decide)
  obtain ⟨written, hwritten, hat, hcolon⟩ := scheme_shape hne
  generalize (splitScheme (stripped url)).2 = rest at hwritten ⊢
  have hlead : word.takeWhile isC0OrSpace ++ word.dropWhile isC0OrSpace = word := List.takeWhile_append_dropWhile
  by_cases hmem : ':' ∈ word.dropWhile isC0OrSpace
  · right
    rw [hurl, stripped_word hsolid (List.ne_nil_of_mem hmem)] at hwritten
    obtain ⟨hcut, hrest⟩ := afterScheme_word hwritten hcolon hmem
    refine ⟨word.takeWhile isC0OrSpace ++ written, _, hcut, ?_, hrest⟩
    rw [List.mem_append, not_or]
    exact ⟨not_mem_lead (by decide), hat⟩
  · left
    -- the word ends in the scheme, or before it
    have hbegins : word.dropWhile isC0OrSpace <+: written := by
      by_cases hnil : word.dropWhile isC0OrSpace = []
      · rw [hnil]
        exact List.nil_prefix
      · have hlong : word.dropWhile isC0OrSpace <+: written ++ ':' :: rest := by
          rw [← hwritten, hurl, stripped_word hsolid hnil]
          exact List.prefix_append _ _
        exact prefix_of_not_mem hlong hmem
    have hnone : ':' ∉ word := by
      rw [← hlead, List.mem_append, not_or]
      exact ⟨not_mem_lead (by decide), hmem⟩
    constructor
    · rw [← hlead, List.mem_append, not_or]
      exact ⟨not_mem_lead (by decide), fun hmem => hat (hbegins.subset hmem)⟩
    · unfold afterScheme
      rw [partition_of_not_mem hnone]

theorem hostPortIn_of_parts {before after : List Char} (hbefore : '@' ∉ before) (hafter : '/' ∉ after) :
    hostPortIn (before ++ after) = none := by
  apply hostPortIn_none
  rw [List.dropWhile_append_of_pos fun c hc => decide_eq_true (ne_of_mem_of_not_mem hc hbefore)]
  exact fun hmem => hafter ((List.dropWhile_suffix _).subset hmem)

theorem splitNetloc_slashes (part : List Char) :
    splitNetloc ('/' :: '/' :: part) = (part.takeWhile staysInNetloc, part.dropWhile staysInNetloc) :=
  if_pos ⟨part, rfl⟩

/-- Where two slashes come about by what follows only, there is one at most. -/
theorem no_user_of_late_slashes {after more : List Char} (hshort : ¬['/', '/'] <+: after)
    (hlong : ['/', '/'] <+: after ++ more) : '@' ∉ after := by
  cases after with
  | nil => exact List.not_mem_nil
  | cons c after =>
    cases after with
    | nil =>
      rw [List.cons_append, List.cons_prefix_cons] at hlong
      rw [List.mem_singleton, ← hlong.1]
      decide
    | cons d after =>
      rw [List.cons_append, List.cons_append, List.cons_prefix_cons, List.cons_prefix_cons] at hlong
      rw [← hlong.1, ← hlong.2.1] at hshort
      exact absurd ⟨after, rfl⟩ hshort

/-- The word goes on behind the host and the port: there they end for the address, too. -/
theorem netloc_of_slashes {part more : List Char} (h : part.dropWhile staysInNetloc ≠ []) :
    (part ++ more).takeWhile staysInNetloc = part.takeWhile staysInNetloc := by
  rw [List.takeWhile_append, if_neg]
  intro hlength
  have hall := List.takeWhile_append_dropWhile (p := staysInNetloc) (l := part)
  rw [(List.takeWhile_prefix _).eq_of_length hlength] at hall
  exact h (List.append_right_eq_self.mp hall)

/-- Where user, host and port stand in the word, if the check finds anything in it or the word reaches to the path. -/
theorem word_shape {url : List Char} (hsplit : urlsplit lib url = .ok u)
    (hparse : Endpoint.parse lib url = .ok (some e))
    (h : hostPortIn (firstWord url) ≠ none ∨ SlashInWord (firstWord url)) :
    ∃ before, firstWord url = before ++ (u.netloc ++ behindNetloc (firstWord url)) ∧ '@' ∉ before ∧
      (u.netloc ≠ [] → ['/', '/'] <+: afterScheme (firstWord url) ∧
        ∃ c rest, behindNetloc (firstWord url) = c :: rest ∧ staysInNetloc c = false) := by
  obtain ⟨_, hnetloc, _⟩ := urlsplit_spec hsplit
  unfold SlashInWord at h
  unfold behindNetloc at h ⊢
  rcases word_scheme hsplit hparse with ⟨hnone, hempty⟩ | ⟨before, more, hword, hbefore, hmore⟩
  · have hfree := @hostPortIn_of_parts (firstWord url) [] hnone List.not_mem_nil
    rw [List.append_nil] at hfree
    rw [hempty] at h
    exact absurd (h.resolve_left (not_not.mpr hfree)).1 (by decide)
  rw [hmore] at hnetloc
  generalize afterScheme (firstWord url) = after at hword hnetloc h ⊢
  have hcolon : '@' ∉ before ++ [':'] := by
    rw [List.mem_append, not_or]
    exact ⟨hbefore, by decide⟩
  rw [← List.singleton_append, ← List.append_assoc] at hword
  by_cases hslashes : ['/', '/'] <+: after
  · obtain ⟨part, rfl⟩ := hslashes
    have hstart : '@' ∉ (before ++ [':']) ++ ['/', '/'] := by
      rw [List.mem_append, not_or]
      exact ⟨hcolon, by decide⟩
    rw [← List.append_assoc] at hword
    rw [List.append_assoc, List.cons_append, List.cons_append, List.nil_append, splitNetloc_slashes] at hnetloc
    rw [List.cons_append, List.cons_append, List.nil_append, splitNetloc_slashes] at h ⊢
    cases hdrop : part.dropWhile staysInNetloc with
    | nil =>
      have hslash : '/' ∉ part := fun hmem => absurd (List.dropWhile_eq_nil_iff.mp hdrop '/' hmem) (by decide)
      rw [hword, hostPortIn_of_parts hstart hslash, hdrop] at h
      exact absurd (List.prefix_nil.mp (h.resolve_left (not_not.mpr rfl)).2) (List.cons_ne_nil _ _)
    | cons c rest =>
      rw [netloc_of_slashes (by rw [hdrop]; exact List.cons_ne_nil _ _)] at hnetloc
      refine ⟨_, ?_, hstart, fun _ => ⟨⟨part, rfl⟩, c, rest, rfl, (head_dropWhile hdrop).2⟩⟩
      rw [hword, hnetloc, ← hdrop, List.takeWhile_append_dropWhile]
  · have hsplitWord : splitNetloc after = ([], after) := if_neg hslashes
    have hnil : u.netloc = [] := by
      rw [hnetloc]
      by_cases hlong : ['/', '/'] <+: after ++ more
      · -- the word ends before the second slash
        have hwhole : '@' ∉ (before ++ [':']) ++ after := by
          rw [List.mem_append, not_or]
          exact ⟨hcolon, no_user_of_late_slashes hslashes hlong⟩
        have hfree := @hostPortIn_of_parts _ [] hwhole List.not_mem_nil
        rw [List.append_nil, ← hword] at hfree
        exact absurd (h.resolve_left (not_not.mpr hfree)).1 hslashes
      · exact congrArg Prod.fst (if_neg hlong)
    rw [hsplitWord]
    refine ⟨before ++ [':'], ?_, hcolon, fun hne => absurd hnil hne⟩
    rw [hnil, hword, List.nil_append]

theorem port_digits {n : Nat} (h : u.port = some (some n)) :
    u.hostPort.2 ≠ [] ∧ (∀ c ∈ u.hostPort.2, c.isDigit = true) ∧ n = Nat.ofDigitChars 10 u.hostPort.2 0 := by
  unfold SplitUrl.port at h
  dsimp only at h
  split at h
  · cases h
  · next hne =>
    split at h
    · next hall =>
      split at h
      · cases h
        exact ⟨hne, List.all_eq_true.mp hall, rfl⟩
      · cases h
    · cases h

theorem isAnyDigit_ascii {c : Char} (h : c.isDigit = true) : isAnyDigit c = true := by
  unfold isAnyDigit
  rw [digitOf_ascii h]
  rfl

/-- What the pattern finds in the word: user, host and port of the address come first. -/
theorem hostPortIn_word {url : List Char} (hsplit : urlsplit lib url = .ok u)
    (hparse : Endpoint.parse lib url = .ok (some e))
    (h : hostPortIn (firstWord url) ≠ none ∨ SlashInWord (firstWord url)) :
    hostPortIn (firstWord url) =
      (if '@' ∈ u.netloc then hostPortHere ('@' :: (u.hostinfo ++ behindNetloc (firstWord url))) else none).or
        (hostPortIn (behindNetloc (firstWord url))) := by
  obtain ⟨before, hword, hbefore, -⟩ := word_shape hsplit hparse h
  generalize behindNetloc (firstWord url) = behind at hword ⊢
  by_cases hat : '@' ∈ u.netloc
  · obtain ⟨hinfo, hlast⟩ := rpartition_eq hat
    have hhostinfo : u.hostinfo = (rpartition '@' u.netloc).2 := if_pos hat
    rw [← hhostinfo] at hinfo hlast
    have hslash : '/' ∉ (rpartition '@' u.netloc).1 := by
      intro hmem
      have hnetloc : '/' ∈ u.netloc := by
        rw [hinfo]
        exact List.mem_append_left _ hmem
      exact absurd (netloc_chars hsplit _ hnetloc).1 (by decide)
    rw [if_pos hat, hword, hinfo, List.append_assoc, List.cons_append, hostPortIn_skip hbefore, hostPortIn_user hslash,
      hostPortIn, hostPortIn_skip hlast]
  · rw [if_neg hat, Option.none_or, hword, hostPortIn_skip hbefore, hostPortIn_skip hat]

/-- The host that is read is the written one in small letters, or the local one. -/
theorem host_eq_readHost (hsplit : urlsplit lib (readSetting text databaseUrl) = .ok u)
    (hparse : Endpoint.parse lib (readSetting text databaseUrl) = .ok (some e)) : e.host = u.readHost lib := by
  obtain ⟨_, _, _, _, _, hhost, _⟩ := parse_spec hsplit hparse
  rw [hhost]
  unfold SplitUrl.hostname SplitUrl.readHost
  split
  · next hnil =>
    have hempty : SplitUrl.smallHost lib [] = [] := by
      unfold SplitUrl.smallHost
      rw [List.takeWhile_nil, lib.lower_ascii [] (List.forall_mem_nil _)]
      rfl
    rw [hnil, hempty]
    rfl
  · rfl

theorem onDefaults_iff (hsplit : urlsplit lib (readSetting text databaseUrl) = .ok u)
    (hparse : Endpoint.parse lib (readSetting text databaseUrl) = .ok (some e)) :
    (e.host, e.port) = (localhost, defaultPort) ↔ OnDefaults lib u := by
  obtain ⟨port, hport, _, _, _, _, hnumber⟩ := parse_spec hsplit hparse
  rw [Prod.mk.injEq, host_eq_readHost hsplit hparse]
  have hsame : e.port = defaultPort ↔
      (u.port = some none ∨ u.port = some (some 0) ∨ u.port = some (some defaultPort)) := by
    rw [hnumber, hport]
    cases port with
    | none => simp
    | some n =>
      simp only [Option.getD_some, Option.some.injEq, reduceCtorEq, false_or]
      split
      · next hzero => simp [hzero]
      · next hpos => simp [hpos]
  rw [hsame]
  constructor
  · intro hboth
    exact ⟨hboth.1, hboth.2⟩
  · intro hdefault
    exact ⟨hdefault.host, hdefault.port⟩

theorem hostinfo_chars (hsplit : urlsplit lib (readSetting text databaseUrl) = .ok u) {c : Char} (hc : c ∈ u.hostinfo) :
    staysInNetloc c = true ∧ c ≠ '@' :=
  ⟨(netloc_chars hsplit c (mem_hostinfo hc).1).1, (mem_hostinfo hc).2⟩

theorem writtenHost_chars (hsplit : urlsplit lib (readSetting text databaseUrl) = .ok u) :
    ∀ c ∈ u.writtenHost, isHostChar c = true := by
  intro c hc
  have hmem : c ∈ u.hostinfo := (List.takeWhile_prefix _).subset hc
  have hcolon : c ≠ ':' := by simpa using List.mem_takeWhile_imp hc
  have hchars := hostinfo_chars hsplit hmem
  simp only [staysInNetloc, Bool.and_eq_true, decide_eq_true_iff] at hchars
  simp [isHostChar, hchars, hcolon]

/-- In an address in full the pattern finds the host and the port that are read. -/
theorem hostPortHere_full (hsplit : urlsplit lib (readSetting text databaseUrl) = .ok u)
    (hparse : Endpoint.parse lib (readSetting text databaseUrl) = .ok (some e)) (hfull : InFull lib u)
    {behind : List Char} (hslash : ['/'] <+: behind) :
    hostPortHere ('@' :: (u.hostinfo ++ behind)) = some (e.host, e.port) := by
  obtain ⟨rest, rfl⟩ := hslash
  obtain ⟨port, hport, _, _, _, _, hnumber⟩ := parse_spec hsplit hparse
  have hread : e.host = u.writtenHost := (host_eq_readHost hsplit hparse).trans hfull.asRead
  have hchars := writtenHost_chars hsplit
  have hne := hfull.host
  rw [hread]
  by_cases hcolon : ':' ∈ u.hostinfo
  · obtain ⟨hbracket, n, hn, hportn⟩ := hfull.port.resolve_left (not_not.mpr hcolon)
    obtain ⟨host, digits, hhostinfo, hfirst⟩ := List.eq_append_cons_of_mem hcolon
    have hboth : u.hostPort = (host, digits) := by
      unfold SplitUrl.hostPort
      rw [if_neg hbracket, hhostinfo, partition_append hfirst]
    obtain ⟨hdigits, hall, hvalue⟩ := port_digits hportn
    rw [hboth] at hdigits hall hvalue
    have hwritten : u.writtenHost = host := by
      have hparts := partition_append (m := digits) hfirst
      rw [← hhostinfo] at hparts
      exact congrArg Prod.fst hparts
    have hportEq : e.port = n := by
      rw [hportn, Option.some.injEq] at hport
      rw [hnumber, ← hport, Option.getD_some, if_neg hn]
    rw [hwritten] at hchars hne ⊢
    rw [hhostinfo, List.append_assoc, List.cons_append, List.singleton_append, hportEq, hvalue,
      ← digitsValue_ascii hall]
    exact hostPortHere_port hne hchars hdigits (fun c hc => isAnyDigit_ascii (hall c hc)) rest
  · have hwritten : u.writtenHost = u.hostinfo :=
      List.takeWhile_eq_self_iff.mpr fun c hc => decide_eq_true (ne_of_mem_of_not_mem hc hcolon)
    have hnoPort : u.hostPort.2 = [] := by
      have hnone : ∀ l : List Char, ':' ∉ l → (partition ':' l).2 = [] := fun l hl => by rw [partition_of_not_mem hl]
      unfold SplitUrl.hostPort
      split
      · exact hnone _ fun hmem => hcolon (mem_partition_snd (mem_partition_snd hmem))
      · exact hnone _ hcolon
    have hportEq : e.port = defaultPort := by
      have hportn : u.port = some none := by
        unfold SplitUrl.port
        rw [hnoPort]
        rfl
      rw [hportn, Option.some.injEq] at hport
      rw [hnumber, ← hport]
      rfl
    rw [hwritten] at hchars hne ⊢
    rw [hportEq]
    exact hostPortHere_host hne hchars rest

/-- Two texts that are cut at their first character of another kind. -/
theorem cut_unique {p : Char → Bool} {l m rest more : List Char} {c d : Char} (hl : ∀ x ∈ l, p x = true)
    (hm : ∀ x ∈ m, p x = true) (hc : p c = false) (hd : p d = false) (h : l ++ c :: rest = m ++ d :: more) :
    l = m ∧ c = d ∧ rest = more := by
  have htake : ∀ {x : List Char} {a : Char} {y : List Char}, (∀ z ∈ x, p z = true) → p a = false →
      (x ++ a :: y).takeWhile p = x := by
    intro x a y hx ha
    rw [List.takeWhile_append_of_pos hx, List.takeWhile_cons_of_neg (by simp [ha]), List.append_nil]
  have hsame : l = m := by
    rw [← htake (y := rest) hl hc, h, htake hm hd]
  subst hsame
  have htail := List.append_cancel_left h
  cases htail
  exact ⟨rfl, rfl, rfl⟩

theorem stays_of_anyDigit {c : Char} (h : isAnyDigit c = true) : staysInNetloc c = true := by
  cases hout : staysInNetloc c with
  | true => rfl
  | false =>
    simp only [staysInNetloc, Bool.and_eq_false_iff, decide_eq_false_iff_not, not_not] at hout
    rcases hout with (rfl | rfl) | rfl <;> exact absurd h (by decide)

theorem exists_port {port : Option Nat} (hport : u.port = some port) (hdigits : u.hostPort.2 ≠ []) :
    ∃ n, u.port = some (some n) := by
  cases port with
  | some n => exact ⟨n, hport⟩
  | none =>
    unfold SplitUrl.port at hport
    dsimp only at hport
    rw [if_neg hdigits] at hport
    split at hport
    · split at hport
      · cases hport
      · cases hport
    · cases hport

/-- Of two marks in one list the one that is not behind the other stands before it. -/
theorem mem_behind {c d : Char} {before after l m : List Char} (h : before ++ c :: after = l ++ d :: m) (hne : c ≠ d)
    (hc : c ∉ m) : d ∈ after := by
  rcases List.append_eq_append_iff.mp h with ⟨between, -, hlater⟩ | ⟨between, -, hlater⟩
  · cases between with
    | nil => exact absurd (List.cons.inj hlater).1 hne
    | cons a between =>
      rw [(List.cons.inj hlater).2]
      simp
  · cases between with
    | nil => exact absurd (List.cons.inj hlater).1.symm hne
    | cons a between =>
      rw [(List.cons.inj hlater).2] at hc
      simp at hc

/-- A host that is read up to the first colon, with digits behind it, is written without brackets. -/
theorem no_bracket (hsplit : urlsplit lib (readSetting text databaseUrl) = .ok u)
    (hparse : Endpoint.parse lib (readSetting text databaseUrl) = .ok (some e)) {digits : List Char}
    (hhostinfo : u.hostinfo = e.host ++ ':' :: digits) (hfirst : ':' ∉ e.host)
    (hall : ∀ d ∈ digits, isAnyDigit d = true) : '[' ∉ u.hostinfo := by
  intro hopen
  have hnot : ∀ d, isAnyDigit d = false → d ∉ digits := by
    intro d hd hmem
    rw [hall d hmem] at hd
    cases hd
  have hinHost : ∀ d, isAnyDigit d = false → d ≠ ':' → d ∈ u.hostinfo → d ∈ e.host := by
    intro d hdigit hcolon hmem
    rw [hhostinfo, List.mem_append, List.mem_cons] at hmem
    exact hmem.resolve_right fun hlater => hlater.elim hcolon (hnot d hdigit)
  by_cases hclose : ']' ∈ u.hostinfo
  · have he := parse_readable readSetting_oneLine hsplit hparse
    exact he.unpaired ⟨hinHost '[' (by decide) (by decide) hopen, hinHost ']' (by decide) (by decide) hclose⟩
  · -- without a bracket that closes, the host that is read goes on behind the colon
    obtain ⟨before, after, hopened, hbefore⟩ := List.eq_append_cons_of_mem hopen
    have hhostPort : u.hostPort.1 = after := by
      have hnone : ']' ∉ after := fun hmem => hclose (by rw [hopened]; simp [hmem])
      unfold SplitUrl.hostPort
      rw [if_pos hopen, hopened, partition_append hbefore]
      exact congrArg Prod.fst (partition_of_not_mem hnone)
    have hcolon : ':' ∈ u.hostPort.1 := by
      rw [hhostPort]
      exact mem_behind (hopened.symm.trans hhostinfo) (by decide) (hnot '[' (by decide))
    exact hfirst ((mem_host_iff hsplit hparse (by decide) (by decide)).mpr hcolon)

/-- Where the pattern finds there what is read, the address is in full. -/
theorem inFull_of_here (hsplit : urlsplit lib (readSetting text databaseUrl) = .ok u)
    (hparse : Endpoint.parse lib (readSetting text databaseUrl) = .ok (some e)) (hat : '@' ∈ u.netloc)
    {c : Char} {rest : List Char} (hc : staysInNetloc c = false)
    (h : hostPortHere ('@' :: (u.hostinfo ++ c :: rest)) = some (e.host, e.port)) : InFull lib u ∧ c = '/' := by
  obtain ⟨port, hport, _, _, _, _, hnumber⟩ := parse_spec hsplit hparse
  have he := parse_readable readSetting_oneLine hsplit hparse
  have hread := host_eq_readHost hsplit hparse
  have hinfo : ∀ d ∈ u.hostinfo, staysInNetloc d = true := fun d hd => (hostinfo_chars hsplit hd).1
  have hslash : staysInNetloc '/' = false := by decide
  generalize hsite : (e.host, e.port) = site at h
  generalize htext : '@' :: (u.hostinfo ++ c :: rest) = text' at h
  cases hostPortHere_iff.mp h with
  | bare host more hne hhost =>
    obtain ⟨rfl, -⟩ := Prod.mk.inj hsite
    obtain ⟨hsame, hcut, -⟩ := cut_unique hinfo he.stays hc hslash (List.cons.inj htext).2
    have hcolon : ':' ∉ u.hostinfo := fun hmem => absurd (hhost ':' (hsame ▸ hmem)) (by decide)
    have hwritten : u.writtenHost = u.hostinfo :=
      List.takeWhile_eq_self_iff.mpr fun d hd => decide_eq_true (ne_of_mem_of_not_mem hd hcolon)
    refine ⟨⟨hat, ?_, ?_, .inl hcolon⟩, hcut⟩
    · rw [hwritten, hsame]
      exact hne
    · rw [hwritten, hsame, ← hread]
  | port host digits more hne hhost hdigits hall =>
    obtain ⟨rfl, hfound⟩ := Prod.mk.inj hsite
    have hstays : ∀ d ∈ e.host ++ ':' :: digits, staysInNetloc d = true := by
      intro d hd
      rw [List.mem_append, List.mem_cons] at hd
      rcases hd with hd | rfl | hd
      · exact he.stays d hd
      · decide
      · exact stays_of_anyDigit (hall d hd)
    have htail := (List.cons.inj htext).2
    rw [← List.cons_append, ← List.append_assoc] at htail
    obtain ⟨hsame, hcut, -⟩ := cut_unique hinfo hstays hc hslash htail
    have hfirst : ':' ∉ e.host := fun hmem => absurd (hhost ':' hmem) (by decide)
    have hbracket := no_bracket hsplit hparse hsame hfirst hall
    have hparts : partition ':' u.hostinfo = (e.host, digits) := by rw [hsame, partition_append hfirst]
    have hwritten : u.writtenHost = e.host := congrArg Prod.fst hparts
    have hhostPort : u.hostPort = (e.host, digits) := (if_neg hbracket).trans hparts
    obtain ⟨n, hn⟩ := exists_port hport (by rw [hhostPort]; exact hdigits)
    obtain ⟨-, hascii, hvalue⟩ := port_digits hn
    rw [hhostPort] at hascii hvalue
    refine ⟨⟨hat, ?_, ?_, .inr ⟨hbracket, n, ?_, hn⟩⟩, hcut⟩
    · rw [hwritten]
      exact hne
    · rw [hwritten, ← hread]
    · intro hzero
      rw [hn, Option.some.injEq] at hport
      rw [← hport, Option.getD_some, if_pos hzero, hfound, digitsValue_ascii hascii, ← hvalue, hzero] at hnumber
      exact absurd hnumber (by decide)

theorem value_ne_nil (hparse : Endpoint.parse lib (readSetting text databaseUrl) = .ok (some e)) :
    readSetting text databaseUrl ≠ [] := by
  intro hnil
  rw [hnil] at hparse
  cases hparse

theorem checked_unique {word word' : List Char} (h : Checked text word) (h' : Checked text word') : word = word' := by
  have hboth := ((settingWord_iff word).mpr h).symm.trans ((settingWord_iff word').mpr h')
  exact Option.some.inj hboth

/-- What the check finds in the word of the address is read from it, or stands behind it. -/
theorem firstSite_word (hsplit : urlsplit lib (readSetting text databaseUrl) = .ok u)
    (hparse : Endpoint.parse lib (readSetting text databaseUrl) = .ok (some e))
    (h : FirstSite (firstWord (readSetting text databaseUrl)) (e.host, e.port)) :
    (SlashInWord (firstWord (readSetting text databaseUrl)) ∧ InFull lib u) ∨
      FirstSite (behindNetloc (firstWord (readSetting text databaseUrl))) (e.host, e.port) := by
  have hfound := (hostPortIn_iff _).mpr h
  have hsome : hostPortIn (firstWord (readSetting text databaseUrl)) ≠ none := by
    rw [hfound]
    exact Option.some_ne_none _
  rw [hostPortIn_word hsplit hparse (.inl hsome)] at hfound
  obtain ⟨_, _, _, hnetloc⟩ := word_shape hsplit hparse (.inl hsome)
  by_cases hat : '@' ∈ u.netloc
  · obtain ⟨hslashes, c, rest, hbehind, hc⟩ := hnetloc (List.ne_nil_of_mem hat)
    rw [if_pos hat] at hfound
    cases hhere : hostPortHere ('@' :: (u.hostinfo ++ behindNetloc (firstWord (readSetting text databaseUrl)))) with
    | none =>
      rw [hhere, Option.none_or] at hfound
      exact .inr ((hostPortIn_iff _).mp hfound)
    | some site =>
      rw [hhere, Option.some_or] at hfound
      rw [hfound, hbehind] at hhere
      obtain ⟨hfull, rfl⟩ := inFull_of_here hsplit hparse hat hc hhere
      exact .inl ⟨⟨hslashes, ⟨rest, hbehind.symm⟩⟩, hfull⟩
  · rw [if_neg hat, Option.none_or] at hfound
    exact .inr ((hostPortIn_iff _).mp hfound)

theorem firstSite_full (hsplit : urlsplit lib (readSetting text databaseUrl) = .ok u)
    (hparse : Endpoint.parse lib (readSetting text databaseUrl) = .ok (some e))
    (hslash : SlashInWord (firstWord (readSetting text databaseUrl))) (hfull : InFull lib u) :
    FirstSite (firstWord (readSetting text databaseUrl)) (e.host, e.port) := by
  rw [← hostPortIn_iff, hostPortIn_word hsplit hparse (.inr hslash), if_pos hfull.user,
    hostPortHere_full hsplit hparse hfull hslash.2, Option.some_or]

/-- The check agrees where it finds the host and the port of an address in full, where it finds nothing and the
address stands for the defaults, and where another place names the same host and port. -/
theorem reportsSame_iff (hsplit : urlsplit lib (readSetting text databaseUrl) = .ok u)
    (hparse : Endpoint.parse lib (readSetting text databaseUrl) = .ok (some e)) :
    ReportsSame lib text ↔
      (KeyInSight text ∧ SlashInWord (firstWord (readSetting text databaseUrl)) ∧ InFull lib u) ∨
        (OnDefaults lib u ∧ FindsNothing text) ∨ FoundElsewhere text e := by
  have hreports : ReportsSame lib text ↔ databaseEndpoint text = (e.host, e.port) := by
    unfold ReportsSame
    rw [currentEndpoint_of_parse hparse]
    simp
  rw [hreports, databaseEndpoint_iff, onDefaults_iff hsplit hparse]
  constructor
  · intro h
    rcases h with ⟨word, hchecked, hsite⟩ | hdefault
    · by_cases hsight : KeyInSight text
      · rw [checked_unique hchecked hsight] at hsite
        rcases firstSite_word hsplit hparse hsite with hown | hbehind
        · exact .inl ⟨hsight, hown.1, hown.2⟩
        · exact .inr (.inr ⟨⟨_, hsight, hsite⟩, fun _ => hbehind⟩)
      · exact .inr (.inr ⟨⟨word, hchecked, hsite⟩, fun h => absurd h hsight⟩)
    · exact .inr (.inl hdefault)
  · intro h
    rcases h with hown | hdefault | helsewhere
    · exact .inl ⟨_, hown.1, firstSite_full hsplit hparse hown.2.1 hown.2.2⟩
    · exact .inr hdefault
    · exact .inl helsewhere.found

/-! ## The three together -/

/-- Changing the name keeps the connection exactly for a plain host without options, and all other keys always. The
reachability check agrees exactly where it finds the address in full, where it finds nothing and the address stands
for the defaults, and where another place names the same host and port; the key is in sight if up to it the file has
the lines of the pattern. -/
theorem changing_database_keeps_iff (lib : UrlLibrary) (text name : List Char) (u : SplitUrl) (e : Endpoint)
    (hsplit : urlsplit lib (readSetting text databaseUrl) = .ok u)
    (hparse : Endpoint.parse lib (readSetting text databaseUrl) = .ok (some e)) :
    (KeepsConnection lib text name ↔ u.query = [] ∧ PlainHost u) ∧ OthersUnchanged lib text name ∧
      (ReportsSame lib text ↔
        (KeyInSight text ∧ SlashInWord (firstWord (readSetting text databaseUrl)) ∧ InFull lib u) ∨
          (OnDefaults lib u ∧ FindsNothing text) ∨ FoundElsewhere text e) ∧
      (PlainToKey text ∧ KeyUnbroken (splitLines isLineBreak text) → KeyInSight text) :=
  ⟨keepsConnection_iff hsplit hparse, othersUnchanged hsplit hparse, reportsSame_iff hsplit hparse,
    fun hplain => checked_of_lines hplain.1 hplain.2 rfl (value_ne_nil hparse)⟩

theorem toLower_ascii : ∀ k < 128, (Char.ofNat k).toLower.toLower = (Char.ofNat k).toLower ∧
    (isSteady (Char.ofNat k) = true ∨ isSteady (Char.ofNat k).toLower = true →
      (Char.ofNat k).toLower = Char.ofNat k) := by decide +kernel

theorem toLower_beyond {c : Char} (h : 128 ≤ c.toNat) : c.toLower = c := by
  have hc : c.toNat = c.val.toNat := rfl
  have hZ : 'Z'.val.toNat = 90 := rfl
  unfold Char.toLower
  rw [dif_neg]
  rw [ge_iff_le, UInt32.le_iff_toNat_le, UInt32.le_iff_toNat_le]
  omega

theorem toLower_steady {c : Char} (h : isSteady c = true ∨ isSteady c.toLower = true) : c.toLower = c := by
  cases Nat.lt_or_ge c.toNat 128 with
  | inl hascii =>
    have hfound := (toLower_ascii c.toNat hascii).2
    rw [Char.ofNat_toNat] at hfound
    exact hfound h
  | inr hbeyond => exact toLower_beyond hbeyond

/-- The library on the letters of ASCII. -/
def asciiLibrary : UrlLibrary where
  lower := List.map Char.toLower
  lower_lower := by
    intro l
    rw [List.map_map]
    apply List.map_congr_left
    intro c _
    cases Nat.lt_or_ge c.toNat 128 with
    | inl hascii =>
      have hfound := (toLower_ascii c.toNat hascii).1
      rwa [Char.ofNat_toNat] at hfound
    | inr hbeyond => simp [toLower_beyond hbeyond]
  mem_lower := by
    intro l c hc
    rw [List.mem_map]
    constructor
    · rintro ⟨d, hd, rfl⟩
      rwa [toLower_steady (Or.inr hc)]
    · intro hmem
      exact ⟨c, hmem, toLower_steady (Or.inl hc)⟩
  lower_ascii := fun _ _ => rfl
  bracketed := fun _ => true

/-- A port, a password, a note behind the address, and a form feed in another value. -/
def notedFile : List Char := "A=1\nDATABASE_URL=postgresql://u:p@db:5433/x # local\nB=1\x0c2\n".toList

theorem changing_database_keeps_iff_noted :
    KeepsConnection asciiLibrary notedFile ['y'] ∧ OthersUnchanged asciiLibrary notedFile ['y'] ∧
      ReportsSame asciiLibrary notedFile := by
  obtain ⟨hkeeps, hothers, hreports, hsight⟩ := changing_database_keeps_iff asciiLibrary notedFile ['y']
    ⟨"postgresql".toList, "u:p@db:5433".toList, "/x ".toList, [], " local".toList⟩
    ⟨['u'], ['p'], ['d', 'b'], 5433, ['x', ' ']⟩ (by decide) (by decide)
  have hlines : PlainToKey notedFile := List.isPrefixOf_iff_prefix.mp (by decide)
  have hunbroken : KeyUnbroken (splitLines isLineBreak notedFile) := .inr ⟨by decide, .inl (by decide)⟩
  refine ⟨hkeeps.mpr ⟨by decide, by decide, by decide, by decide⟩, hothers, hreports.mpr (.inl ⟨?_, ?_, ?_⟩)⟩
  · exact hsight ⟨hlines, hunbroken⟩
  · exact ⟨List.isPrefixOf_iff_prefix.mp (by decide), List.isPrefixOf_iff_prefix.mp (by decide)⟩
  · exact ⟨by decide, by decide, by decide, .inr ⟨by decide, 5433, by decide, by decide⟩⟩

/-- The options behind the `?` are lost. -/
theorem options_are_lost :
    Endpoint.parse asciiLibrary (readSetting "DATABASE_URL=postgresql://u@h/d?sslmode=require\n".toList databaseUrl) =
        .ok (some ⟨['u'], [], ['h'], 5432, ['d']⟩) ∧
      ¬KeepsConnection asciiLibrary "DATABASE_URL=postgresql://u@h/d?sslmode=require\n".toList ['n'] := by
  have hparse : Endpoint.parse asciiLibrary
      (readSetting "DATABASE_URL=postgresql://u@h/d?sslmode=require\n".toList databaseUrl) =
        .ok (some ⟨['u'], [], ['h'], 5432, ['d']⟩) := by decide
  have hsplit : urlsplit asciiLibrary
      (readSetting "DATABASE_URL=postgresql://u@h/d?sslmode=require\n".toList databaseUrl) =
        .ok ⟨"postgresql".toList, "u@h".toList, "/d".toList, "sslmode=require".toList, []⟩ := by decide
  refine ⟨hparse, ?_⟩
  rw [keepsConnection_iff hsplit hparse]
  exact fun hkept => absurd hkept.1 (by decide)

end NexaHR
