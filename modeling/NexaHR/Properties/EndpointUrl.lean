import Mathlib.Data.Bool.AllAny
import NexaHR.Properties.EnvFile

/-! # Endpoints that are written and read back

* `Readable`: what every endpoint that has been read has. `parse_readable`.
* `urlsplit_url`: the parts of a written address.
* `parse_url`: a plain host is read back, with everything else; `parse_url_colon`, `parse_url_bracket`: no other is.
-/

namespace NexaHR

open Foundations

set_option autoImplicit false

variable {lib : UrlLibrary} {e : Endpoint} {u : SplitUrl} {url : List Char}

/-! ## Hosts in small letters -/

theorem mem_smallHost {host : List Char} {c : Char} (hc : isSteady c = true) :
    c ∈ SplitUrl.smallHost lib host ↔ c ∈ host := by
  have hparts : c ∈ host ↔ c ∈ host.takeWhile (· ≠ '%') ∨ c ∈ host.dropWhile (· ≠ '%') := by
    rw [← List.mem_append, List.takeWhile_append_dropWhile]
  unfold SplitUrl.smallHost
  rw [List.mem_append, lib.mem_lower _ _ hc, hparts]

theorem smallHost_smallHost (host : List Char) :
    SplitUrl.smallHost lib (SplitUrl.smallHost lib host) = SplitUrl.smallHost lib host := by
  have hpercent : '%' ∉ lib.lower (host.takeWhile (· ≠ '%')) := by
    rw [lib.mem_lower _ _ (by decide)]
    intro hmem
    simpa using List.mem_takeWhile_imp hmem
  have hplain : ∀ d ∈ lib.lower (host.takeWhile (· ≠ '%')), decide (d ≠ '%') = true :=
    fun d hd => decide_eq_true fun heq => hpercent (heq ▸ hd)
  have hzone : (host.dropWhile (· ≠ '%')).takeWhile (· ≠ '%') = [] := by
    rw [List.takeWhile_eq_nil_iff]
    intro hpos
    simpa using List.dropWhile_get_zero_not (· ≠ '%') host hpos
  have hstay : (host.dropWhile (· ≠ '%')).dropWhile (· ≠ '%') = host.dropWhile (· ≠ '%') :=
    List.dropWhile_idempotent _ _
  unfold SplitUrl.smallHost
  rw [List.takeWhile_append_of_pos hplain, List.dropWhile_append_of_pos hplain, hzone, hstay, List.append_nil,
    lib.lower_lower]

theorem smallHost_localhost : SplitUrl.smallHost lib localhost = localhost := by
  have hwhole : localhost.takeWhile (· ≠ '%') = localhost := by decide
  have hzone : localhost.dropWhile (· ≠ '%') = [] := by decide
  unfold SplitUrl.smallHost
  rw [hwhole, hzone, lib.lower_ascii _ (List.all_iff_forall_prop.mp (by decide)), List.append_nil]
  decide

/-! ## What is read -/

/-- What every endpoint that has been read from one line has. -/
structure Readable (lib : UrlLibrary) (e : Endpoint) : Prop where
  user : e.user ≠ []
  host : e.host ≠ []
  port : 1 ≤ e.port ∧ e.port ≤ 65535
  stays : ∀ c ∈ e.host, staysInNetloc c = true
  noAt : '@' ∉ e.host
  clean : ∀ c ∈ e.host, isTabOrNewline c = false ∧ isLineBreak c = false ∧ isLookalike c = false
  small : SplitUrl.smallHost lib e.host = e.host
  unpaired : ¬('[' ∈ e.host ∧ ']' ∈ e.host)

/-- The parts of an address that `urlsplit` accepts. -/
theorem urlsplit_spec (h : urlsplit lib url = .ok u) :
    u.scheme = (splitScheme (stripped url)).1 ∧
    u.netloc = (splitNetloc (splitScheme (stripped url)).2).1 ∧
    u.path = (partition '?' (partition '#' (splitNetloc (splitScheme (stripped url)).2).2).1).1 ∧
    u.netloc.any isLookalike = false := by
  unfold urlsplit at h
  dsimp only at h
  split at h
  · cases h
  split at h
  · cases h
  split at h
  · cases h
  · next hlookalike =>
    cases h
    exact ⟨rfl, rfl, rfl, by simpa using hlookalike⟩

theorem mem_splitScheme {l : List Char} {c : Char} (h : c ∈ (splitScheme l).2) : c ∈ l := by
  unfold splitScheme at h
  cases hscheme : writtenScheme l with
  | none => simpa [hscheme] using h
  | some found =>
    rw [hscheme, Option.getD_some] at h
    unfold writtenScheme at hscheme
    split at hscheme
    · cases hscheme
    · next d rest =>
      split at hscheme
      · split at hscheme
        · next after hafter =>
          cases hscheme
          have hlater : c ∈ rest.dropWhile isSchemeChar := hafter ▸ List.mem_cons_of_mem _ h
          exact List.mem_cons_of_mem _ ((List.dropWhile_suffix _).subset hlater)
        · cases hscheme
      · cases hscheme

/-- The characters of what stands between the slashes. -/
theorem netloc_chars (h : urlsplit lib url = .ok u) :
    ∀ c ∈ u.netloc, staysInNetloc c = true ∧ isTabOrNewline c = false ∧ isLookalike c = false ∧ c ∈ url := by
  obtain ⟨_, hnetloc, _, hlookalike⟩ := urlsplit_spec h
  intro c hc
  have hplain : isLookalike c = false := by
    rw [List.any_eq_false] at hlookalike
    simpa using hlookalike c hc
  rw [hnetloc] at hc
  unfold splitNetloc at hc
  split at hc
  · have hstay := List.mem_takeWhile_imp hc
    have hscheme : c ∈ stripped url := by
      apply mem_splitScheme
      exact List.mem_of_mem_drop ((List.takeWhile_prefix _).subset hc)
    unfold stripped at hscheme
    rw [List.mem_filter] at hscheme
    exact ⟨hstay, by simpa using hscheme.2, hplain, (List.dropWhile_suffix _).subset hscheme.1⟩
  · cases hc

theorem mem_partition_fst {d c : Char} {l : List Char} (h : c ∈ (partition d l).1) : c ∈ l ∧ c ≠ d :=
  ⟨(List.takeWhile_prefix _).subset h, by simpa using List.mem_takeWhile_imp h⟩

theorem mem_partition_snd {d c : Char} {l : List Char} (h : c ∈ (partition d l).2) : c ∈ l :=
  (List.dropWhile_suffix _).subset (List.mem_of_mem_tail h)

theorem mem_hostinfo {c : Char} (h : c ∈ u.hostinfo) : c ∈ u.netloc ∧ c ≠ '@' := by
  unfold SplitUrl.hostinfo at h
  split at h
  · unfold rpartition at h
    rw [List.mem_reverse] at h
    have hfound := mem_partition_fst h
    exact ⟨List.mem_reverse.mp hfound.1, hfound.2⟩
  · next hat => exact ⟨h, fun heq => hat (heq ▸ h)⟩

theorem mem_hostPort {c : Char} (h : c ∈ u.hostPort.1) : c ∈ u.hostinfo := by
  unfold SplitUrl.hostPort at h
  split at h
  · exact mem_partition_snd (mem_partition_fst h).1
  · exact (mem_partition_fst h).1

theorem hostPort_unpaired : ¬('[' ∈ u.hostPort.1 ∧ ']' ∈ u.hostPort.1) := by
  intro h
  have hopen := mem_hostPort h.1
  unfold SplitUrl.hostPort at h
  rw [if_pos hopen] at h
  exact (mem_partition_fst h.2).2 rfl

theorem port_le {n : Nat} (h : u.port = some (some n)) : n ≤ 65535 := by
  unfold SplitUrl.port at h
  dsimp only at h
  split at h
  · cases h
  split at h
  · split at h
    · next hle =>
      cases h
      exact hle
    · cases h
  · cases h

/-- The endpoint of an address that is accepted. -/
theorem parse_spec (hsplit : urlsplit lib url = .ok u) (h : Endpoint.parse lib url = .ok (some e)) :
    ∃ port, u.port = some port ∧ postgres <+: u.scheme ∧
      e.user = unquote (orElse (u.username.getD []) defaultName) ∧
      e.password = unquote (u.password.getD []) ∧
      e.host = orElse ((u.hostname lib).getD []) localhost ∧
      e.port = if port.getD 0 = 0 then defaultPort else port.getD 0 := by
  unfold Endpoint.parse at h
  split at h
  · cases h
  · simp only [hsplit, bind, Except.bind, pure, Except.pure] at h
    split at h
    · cases h
    · next hscheme =>
      cases hport : u.port with
      | none => simp [hport] at h
      | some port =>
        simp only [hport, Except.ok.injEq, Option.some.injEq] at h
        subst h
        exact ⟨port, rfl, not_not.mp hscheme, rfl, rfl, rfl, rfl⟩

theorem orElse_ne_nil {text default : List Char} (h : default ≠ []) : orElse text default ≠ [] := by
  unfold orElse
  split
  · exact h
  · assumption

/-- The host of an endpoint that is read is the written one in small letters, or the local one. -/
theorem host_cases (hsplit : urlsplit lib url = .ok u) (h : Endpoint.parse lib url = .ok (some e)) :
    e.host = SplitUrl.smallHost lib u.hostPort.1 ∨ e.host = localhost := by
  obtain ⟨_, _, _, _, _, hhost, _⟩ := parse_spec hsplit h
  unfold SplitUrl.hostname at hhost
  split at hhost
  · exact Or.inr hhost
  · rw [Option.getD_some] at hhost
    unfold orElse at hhost
    split at hhost
    · exact Or.inr hhost
    · exact Or.inl hhost

/-- What is read from one line has all of it. -/
theorem parse_readable (hline : ∀ c ∈ url, isLineBreak c = false) (hsplit : urlsplit lib url = .ok u)
    (h : Endpoint.parse lib url = .ok (some e)) : Readable lib e := by
  obtain ⟨port, hport, _, huser, _, hhost, hnumber⟩ := parse_spec hsplit h
  have hchars : ∀ c, isSteady c = true → c ∈ e.host → c ∈ u.hostPort.1 ∨ c ∈ localhost := by
    intro c hc hmem
    cases host_cases hsplit h with
    | inl hsmall => exact Or.inl ((mem_smallHost hc).mp (hsmall ▸ hmem))
    | inr hlocal => exact Or.inr (hlocal ▸ hmem)
  have hnetloc : ∀ c, c ∈ u.hostPort.1 → c ∈ u.netloc ∧ c ≠ '@' := fun c hc => mem_hostinfo (mem_hostPort hc)
  refine
    { user := huser ▸ unquote_ne_nil (orElse_ne_nil (by decide))
      host := hhost ▸ orElse_ne_nil (by decide)
      port := ?_
      stays := ?_
      noAt := ?_
      clean := ?_
      small := ?_
      unpaired := ?_ }
  · rw [hnumber]
    cases port with
    | none => exact ⟨by decide, by decide⟩
    | some n =>
      have hle := port_le hport
      rw [Option.getD_some]
      split
      · exact ⟨by decide, by decide⟩
      · omega
  · intro c hc
    cases hstays : staysInNetloc c with
    | true => rfl
    | false =>
      have hsteady : isSteady c = true := by
        simp only [staysInNetloc, Bool.and_eq_false_iff, decide_eq_false_iff_not, not_not] at hstays
        obtain (rfl | rfl) | rfl := hstays <;> decide
      cases hchars c hsteady hc with
      | inl hwritten =>
        rw [(netloc_chars hsplit c (hnetloc c hwritten).1).1] at hstays
        cases hstays
      | inr hlocal =>
        have hall : ∀ d ∈ localhost, staysInNetloc d = true := List.all_iff_forall_prop.mp (by decide)
        rw [hall c hlocal] at hstays
        cases hstays
  · intro hc
    cases hchars '@' (by decide) hc with
    | inl hwritten => exact (hnetloc '@' hwritten).2 rfl
    | inr hlocal => exact absurd hlocal (by decide)
  · intro c hc
    have hclean : isSteady c = true → isTabOrNewline c = false ∧ isLineBreak c = false ∧ isLookalike c = false := by
      intro hsteady
      cases hchars c hsteady hc with
      | inl hwritten =>
        have hfound := netloc_chars hsplit c (hnetloc c hwritten).1
        exact ⟨hfound.2.1, hline c hfound.2.2.2, hfound.2.2.1⟩
      | inr hlocal =>
        have hall : ∀ d ∈ localhost, isTabOrNewline d = false ∧ isLineBreak d = false ∧ isLookalike d = false :=
          List.all_iff_forall_prop.mp (by decide)
        exact hall c hlocal
    cases hsteady : isSteady c with
    | true => exact hclean hsteady
    | false =>
      simp only [isSteady, Bool.or_eq_false_iff] at hsteady
      refine ⟨?_, hsteady.1.2, hsteady.2⟩
      cases htab : isTabOrNewline c with
      | false => rfl
      | true =>
        simp only [isTabOrNewline, Bool.or_eq_true, decide_eq_true_iff] at htab
        obtain (rfl | rfl) | rfl := htab
        · exact absurd hsteady.1.1.1 (by decide)
        · exact absurd hsteady.1.1.1 (by decide)
        · exact absurd hsteady.1.1.1 (by decide)
  · cases host_cases hsplit h with
    | inl hsmall => rw [hsmall, smallHost_smallHost]
    | inr hlocal => rw [hlocal, smallHost_localhost]
  · intro hboth
    cases host_cases hsplit h with
    | inl hsmall =>
      rw [hsmall, mem_smallHost (by decide), mem_smallHost (by decide)] at hboth
      exact hostPort_unpaired hboth
    | inr hlocal =>
      rw [hlocal] at hboth
      exact absurd hboth.1 (by decide)

/-! ## What is written -/

/-- The characters that stand in a written address outside the host. -/
def isUrlChar (c : Char) : Bool := isUnreserved c || c ∈ ['%', ':', '/', '@', '+']

theorem urlChar_range {c : Char} (h : isUrlChar c = true) : 0x21 ≤ c.toNat ∧ c.toNat ≤ 0x7e := by
  simp only [isUrlChar, isUnreserved, Bool.or_eq_true, decide_eq_true_iff, List.mem_cons, List.not_mem_nil,
    or_false] at h
  obtain ((((halnum | rfl) | rfl) | rfl) | rfl) | rfl | rfl | rfl | rfl | rfl := h
  · have hrange := alphanum_range halnum
    omega
  all_goals decide

/-- None of them is a blank, a line end or a lookalike. -/
theorem urlChar_clean {c : Char} (h : isUrlChar c = true) :
    isTabOrNewline c = false ∧ isLineBreak c = false ∧ isLookalike c = false ∧ isSpace c = false := by
  have hrange := urlChar_range h
  have hne : ∀ d : Char, d.toNat < 0x21 → c ≠ d := by
    intro d hd heq
    rw [heq] at hrange
    omega
  refine ⟨?_, ?_, ?_, ?_⟩
  · simp [isTabOrNewline, hne '\t' (by decide), hne '\n' (by decide), hne '\r' (by decide)]
  · simp only [isLineBreak, decide_eq_false_iff_not, List.mem_cons, List.not_mem_nil, or_false]
    omega
  · simp only [isLookalike, decide_eq_false_iff_not, List.mem_cons, List.not_mem_nil, or_false]
    omega
  · have hblank : c.isWhitespace = false := by
      simp [Char.isWhitespace, hne ' ' (by decide), hne '\t' (by decide), hne '\n' (by decide), hne '\r' (by decide)]
    simp only [isSpace, hblank, Bool.false_or, decide_eq_false_iff_not, List.mem_cons, List.not_mem_nil, or_false]
    omega

theorem isUrlChar_quote {l : List Char} {c : Char} (h : c ∈ quote l) : isUrlChar c = true := by
  unfold isUrlChar
  cases quote_chars l c h with
  | inl hunreserved => simp [hunreserved]
  | inr hpercent => simp [hpercent]

theorem not_mem_quote {l : List Char} {d : Char} (hd : isUnreserved d = false) (hpercent : d ≠ '%') : d ∉ quote l := by
  intro h
  cases quote_chars l d h with
  | inl hunreserved =>
    rw [hd] at hunreserved
    cases hunreserved
  | inr heq => exact hpercent heq

theorem isDigit_of_mem_port {n : Nat} {c : Char} (h : c ∈ Nat.toDigits 10 n) : c.isDigit = true :=
  Nat.isDigit_of_mem_toDigits (by decide) (by decide) h

theorem not_mem_port {n : Nat} {d : Char} (hd : d.isDigit = false) : d ∉ Nat.toDigits 10 n := by
  intro h
  rw [isDigit_of_mem_port h] at hd
  cases hd

theorem isUrlChar_port {n : Nat} {c : Char} (h : c ∈ Nat.toDigits 10 n) : isUrlChar c = true := by
  simp [isUrlChar, isUnreserved, Char.isAlphanum, isDigit_of_mem_port h]

namespace Endpoint

/-- What stands in front of the host. -/
def credentials (e : Endpoint) : List Char := quote e.user ++ if e.password = [] then [] else ':' :: quote e.password

theorem netloc_eq : e.netloc = e.credentials ++ '@' :: (e.host ++ ':' :: Nat.toDigits 10 e.port) := rfl

theorem not_mem_credentials {d : Char} (hd : isUnreserved d = false) (hpercent : d ≠ '%') (hcolon : d ≠ ':') :
    d ∉ e.credentials := by
  unfold credentials
  rw [List.mem_append]
  intro h
  cases h with
  | inl huser => exact not_mem_quote hd hpercent huser
  | inr hsecret =>
    split at hsecret
    · cases hsecret
    · cases List.mem_cons.mp hsecret with
      | inl heq => exact hcolon heq
      | inr hmem => exact not_mem_quote hd hpercent hmem

theorem mem_netloc {c : Char} (h : c ∈ e.netloc) : c ∈ e.host ∨ isUrlChar c = true := by
  rw [netloc_eq] at h
  unfold credentials at h
  simp only [List.mem_append, List.mem_cons] at h
  obtain (huser | hsecret) | rfl | hhost | rfl | hport := h
  · exact Or.inr (isUrlChar_quote huser)
  · split at hsecret
    · cases hsecret
    · cases List.mem_cons.mp hsecret with
      | inl heq =>
        rw [heq]
        exact Or.inr (by decide)
      | inr hmem => exact Or.inr (isUrlChar_quote hmem)
  · exact Or.inr (by decide)
  · exact Or.inl hhost
  · exact Or.inr (by decide)
  · exact Or.inr (isUrlChar_port hport)

theorem mem_url {c : Char} (h : c ∈ e.url) : c ∈ e.host ∨ isUrlChar c = true := by
  have hscheme : ∀ d ∈ schemeText, isUrlChar d = true := List.all_iff_forall_prop.mp (by decide)
  unfold url at h
  simp only [List.mem_append, List.mem_cons] at h
  obtain hmem | rfl | rfl | rfl | hmem | rfl | hmem := h
  · exact Or.inr (hscheme c hmem)
  · exact Or.inr (by decide)
  · exact Or.inr (by decide)
  · exact Or.inr (by decide)
  · exact mem_netloc hmem
  · exact Or.inr (by decide)
  · exact Or.inr (isUrlChar_quote hmem)

/-- A bracket of a written address is one of the host. -/
theorem mem_netloc_iff {d : Char} (hd : isUnreserved d = false) (hdigit : d.isDigit = false)
    (hne : d ≠ '%' ∧ d ≠ ':' ∧ d ≠ '@') : d ∈ e.netloc ↔ d ∈ e.host := by
  rw [netloc_eq]
  simp [not_mem_credentials hd hne.1 hne.2.1, hne, not_mem_port hdigit]

theorem netloc_stays (he : Readable lib e) : ∀ c ∈ e.netloc, staysInNetloc c = true := by
  intro c hc
  have hout : ∀ d : Char, isUnreserved d = false → d.isDigit = false → (d ≠ '%' ∧ d ≠ ':' ∧ d ≠ '@') →
      staysInNetloc d = false → c ≠ d := by
    intro d hd hdigit hne hleaves heq
    rw [heq, mem_netloc_iff hd hdigit hne] at hc
    rw [he.stays d hc] at hleaves
    cases hleaves
  simp [staysInNetloc, hout '/' (by decide) (by decide) (by decide) (by decide),
    hout '?' (by decide) (by decide) (by decide) (by decide), hout '#' (by decide) (by decide) (by decide) (by decide)]

theorem stripped_url (he : Readable lib e) : stripped e.url = e.url := by
  have hall : ∀ c ∈ e.url, (!isTabOrNewline c) = true := by
    intro c hc
    cases mem_url hc with
    | inl hhost => simp [(he.clean c hhost).1]
    | inr hplain => simp [(urlChar_clean hplain).1]
  have hfirst : e.url.dropWhile isC0OrSpace = e.url := rfl
  unfold stripped
  rw [hfirst, List.filter_eq_self]
  exact hall

theorem splitScheme_url : splitScheme e.url = (schemeText, '/' :: '/' :: (e.netloc ++ '/' :: quote e.name)) := rfl

theorem splitNetloc_url (he : Readable lib e) :
    splitNetloc ('/' :: '/' :: (e.netloc ++ '/' :: quote e.name)) = (e.netloc, '/' :: quote e.name) := by
  have hstays := netloc_stays he
  unfold splitNetloc
  rw [if_pos ⟨_, rfl⟩]
  simp only [List.drop_succ_cons, List.drop_zero]
  rw [List.takeWhile_append_of_pos hstays, List.dropWhile_append_of_pos hstays,
    List.takeWhile_cons_of_neg (by decide), List.dropWhile_cons_of_neg (by decide), List.append_nil]

theorem partition_path {d : Char} (hd : isUnreserved d = false) (hpercent : d ≠ '%') (hslash : d ≠ '/') :
    partition d ('/' :: quote e.name) = ('/' :: quote e.name, []) := by
  apply partition_of_not_mem
  simp [hslash, not_mem_quote hd hpercent]

theorem netloc_lookalike (he : Readable lib e) : ¬e.netloc.any isLookalike = true := by
  rw [Bool.not_eq_true, List.any_eq_false]
  intro c hc
  cases mem_netloc hc with
  | inl hhost => simp [(he.clean c hhost).2.2]
  | inr hplain => simp [(urlChar_clean hplain).2.2.1]

/-- The parts of a written address. -/
def parts (e : Endpoint) : SplitUrl := ⟨schemeText, e.netloc, '/' :: quote e.name, [], []⟩

theorem urlsplit_url (he : Readable lib e) :
    urlsplit lib e.url = if '[' ∈ e.host ∨ ']' ∈ e.host then .error .brackets else .ok e.parts := by
  have hopen : '[' ∈ e.netloc ↔ '[' ∈ e.host := mem_netloc_iff (by decide) (by decide) (by decide)
  have hclose : ']' ∈ e.netloc ↔ ']' ∈ e.host := mem_netloc_iff (by decide) (by decide) (by decide)
  have hunpaired := he.unpaired
  unfold urlsplit
  dsimp only
  rw [stripped_url he, splitScheme_url, splitNetloc_url he]
  dsimp only
  rw [partition_path (by decide) (by decide) (by decide), partition_path (by decide) (by decide) (by decide)]
  simp only [hopen, hclose]
  by_cases hbracket : '[' ∈ e.host ∨ ']' ∈ e.host
  · rw [if_pos hbracket, if_pos]
    intro heq
    have hiff := decide_eq_decide.mp heq
    cases hbracket with
    | inl h => exact hunpaired ⟨h, hiff.mp h⟩
    | inr h => exact hunpaired ⟨hiff.mpr h, h⟩
  · rw [not_or] at hbracket
    simp only [hbracket.1, hbracket.2]
    rw [if_neg (by simp), if_neg (by simp), if_neg (netloc_lookalike he), if_neg (by simp)]
    rfl

/-! ## Reading it back -/

theorem rpartition_append {c : Char} {l m : List Char} (h : c ∉ m) : rpartition c (l ++ c :: m) = (l, m) := by
  have hreverse : (l ++ c :: m).reverse = m.reverse ++ c :: l.reverse := by simp
  unfold rpartition
  rw [hreverse, partition_append (by simpa using h), List.reverse_reverse, List.reverse_reverse]

theorem rpartition_netloc (he : Readable lib e) :
    rpartition '@' e.netloc = (e.credentials, e.host ++ ':' :: Nat.toDigits 10 e.port) := by
  rw [netloc_eq]
  apply rpartition_append
  simp [he.noAt, @not_mem_port e.port '@' (by decide)]

theorem at_mem_netloc : '@' ∈ e.parts.netloc := by
  unfold parts
  rw [netloc_eq]
  simp

theorem userinfo_parts (he : Readable lib e) : e.parts.userinfo = some e.credentials := by
  unfold SplitUrl.userinfo
  rw [if_pos at_mem_netloc]
  exact congrArg (fun found => some found.1) (rpartition_netloc he)

theorem hostinfo_parts (he : Readable lib e) : e.parts.hostinfo = e.host ++ ':' :: Nat.toDigits 10 e.port := by
  unfold SplitUrl.hostinfo
  rw [if_pos at_mem_netloc]
  exact congrArg Prod.snd (rpartition_netloc he)

theorem partition_credentials :
    partition ':' e.credentials = (quote e.user, if e.password = [] then [] else quote e.password) := by
  have huser : ':' ∉ quote e.user := not_mem_quote (by decide) (by decide)
  unfold credentials
  split
  · rw [List.append_nil, partition_of_not_mem huser]
  · rw [partition_append huser]

theorem username_parts (he : Readable lib e) : e.parts.username = some (quote e.user) := by
  unfold SplitUrl.username
  rw [userinfo_parts he, Option.map_some, partition_credentials]

theorem password_parts (he : Readable lib e) : unquote (e.parts.password.getD []) = e.password := by
  unfold SplitUrl.password
  rw [userinfo_parts he, Option.bind_some, partition_credentials]
  by_cases hpassword : e.password = []
  · simp only [hpassword, if_true]
    split <;> rfl
  · have hcolon : ':' ∈ e.credentials := by
      unfold credentials
      simp [hpassword]
    rw [if_pos hcolon, if_neg hpassword, Option.getD_some, unquote_quote]

/-- The host and the port of a written address: at a colon in the host they are cut wrongly. -/
theorem hostPort_parts (he : Readable lib e) (hopen : '[' ∉ e.host) :
    e.parts.hostPort = partition ':' (e.host ++ ':' :: Nat.toDigits 10 e.port) := by
  unfold SplitUrl.hostPort
  rw [hostinfo_parts he, if_neg]
  simp [hopen, @not_mem_port e.port '[' (by decide)]

theorem port_parts (he : Readable lib e) (hopen : '[' ∉ e.host) :
    e.parts.port = if ':' ∈ e.host then none else some (some e.port) := by
  have hdigits : (Nat.toDigits 10 e.port).all Char.isDigit = true := by
    rw [List.all_eq_true]
    exact fun c hc => isDigit_of_mem_port hc
  unfold SplitUrl.port
  rw [hostPort_parts he hopen]
  split
  · next hcolon =>
    obtain ⟨before, after, hhost, hfirst⟩ := List.eq_append_cons_of_mem hcolon
    have hrest : e.host ++ ':' :: Nat.toDigits 10 e.port = before ++ ':' :: (after ++ ':' :: Nat.toDigits 10 e.port) := by
      rw [hhost, List.append_assoc, List.cons_append]
    have hnone : ¬(after ++ ':' :: Nat.toDigits 10 e.port).all Char.isDigit = true := by
      intro hall
      have hdigit := List.all_eq_true.mp hall ':' (by simp)
      exact absurd hdigit (by decide)
    rw [hrest, partition_append hfirst]
    dsimp only
    rw [if_neg (by simp), if_neg hnone]
  · next hcolon =>
    have hvalue : Nat.ofDigitChars 10 (Nat.toDigits 10 e.port) 0 = e.port := Nat.ofDigitChars_ten_toDigits
    rw [partition_append hcolon]
    dsimp only
    rw [if_neg Nat.toDigits_ne_nil, if_pos hdigits, hvalue, if_pos he.port.2]

theorem hostname_parts (he : Readable lib e) (hopen : '[' ∉ e.host) (hcolon : ':' ∉ e.host) :
    e.parts.hostname lib = some e.host := by
  unfold SplitUrl.hostname
  rw [hostPort_parts he hopen, partition_append hcolon, if_neg he.host, he.small]

theorem path_parts : e.parts.path.dropWhile (· = '/') = quote e.name := by
  have hstart : ('/' :: quote e.name).dropWhile (· = '/') = (quote e.name).dropWhile (· = '/') := rfl
  have hslash : '/' ∉ quote e.name := not_mem_quote (by decide) (by decide)
  unfold parts
  rw [hstart]
  cases hname : quote e.name with
  | nil => rfl
  | cons c rest =>
    rw [List.dropWhile_cons_of_neg]
    rw [hname] at hslash
    simpa using fun heq : c = '/' => hslash (heq ▸ List.mem_cons_self ..)

/-- What a written address reads as: a host with a bracket or a colon in it is not read back. -/
theorem parse_url (he : Readable lib e) :
    parse lib e.url =
      if '[' ∈ e.host ∨ ']' ∈ e.host then .error .brackets
      else if ':' ∈ e.host then .ok none
      else .ok (some { e with name := orElse e.name defaultName }) := by
  have hstart : ¬(e.url = [] ∨ ¬[':', '/', '/'] <:+: e.url) := by
    rw [not_or, not_not]
    exact ⟨by unfold url; simp [schemeText], schemeText, e.netloc ++ '/' :: quote e.name, by simp [url]⟩
  have hport : e.port ≠ 0 := by
    have hle := he.port.1
    omega
  unfold parse
  rw [if_neg hstart, urlsplit_url he]
  by_cases hbracket : '[' ∈ e.host ∨ ']' ∈ e.host
  · rw [if_pos hbracket, if_pos hbracket]
    rfl
  · have hopen : '[' ∉ e.host := fun h => hbracket (Or.inl h)
    have hscheme : ¬¬postgres <+: e.parts.scheme := not_not.mpr ⟨['q', 'l', '+', 'p', 's', 'y', 'c', 'o', 'p', 'g'], rfl⟩
    rw [if_neg hbracket, if_neg hbracket]
    simp only [bind, Except.bind, pure, Except.pure]
    rw [if_neg hscheme, port_parts he hopen]
    by_cases hcolon : ':' ∈ e.host
    · rw [if_pos hcolon, if_pos hcolon]
    · have huser : orElse (quote e.user) defaultName = quote e.user := if_neg fun hnil =>
        he.user (by rw [← unquote_quote e.user, hnil]; rfl)
      have hhost : orElse e.host localhost = e.host := if_neg he.host
      rw [if_neg hcolon, if_neg hcolon]
      simp only [username_parts he, password_parts he, hostname_parts he hopen hcolon, path_parts, Option.getD_some,
        huser, hhost, unquote_quote, if_neg hport]

end Endpoint

end NexaHR
