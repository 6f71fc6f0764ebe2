import NexaHR.Properties.DatabaseChange

/-! # Many writes to the settings file

* `settings_file_is_a_map`: after any writes a key reads as what was written to it last, or as before, and the lines
  of other keys, the comments and the blank lines stand as they stood.
* `last_name_wins`: after any changes of the database's name the file is the one that the last change alone leaves.
-/

namespace NexaHR

open Foundations

set_option autoImplicit false

variable {text key value value' : List Char}

/-! ## Writes of any keys -/

def afterWrites (text : List Char) (writes : List (List Char × List Char)) : List Char :=
  writes.foldl (fun text write => writeSetting text write.1 write.2) text

/-- The value that was written to a key last. -/
def lastWritten (key : List Char) (writes : List (List Char × List Char)) : Option (List Char) :=
  (writes.reverse.find? fun write => write.1 = key).map Prod.snd

/-- The lines that belong to none of the keys. -/
def foreignLines (writes : List (List Char × List Char)) (text : List Char) : List (List Char) :=
  (splitLines isLineBreak text).filter fun line => writes.all fun write => !hasKey write.1 line

theorem lastWritten_concat (writes : List (List Char × List Char)) (write : List Char × List Char) :
    lastWritten key (writes ++ [write]) = if write.1 = key then some write.2 else lastWritten key writes := by
  unfold lastWritten
  rw [List.reverse_append, List.reverse_singleton, List.singleton_append]
  by_cases h : write.1 = key
  · rw [List.find?_cons_of_pos (by simpa using h), if_pos h, Option.map_some]
  · rw [List.find?_cons_of_neg (by simpa using h), if_neg h]

theorem setLine_foreign {foreign : List Char → Bool} (hkey : ProperKey key) (hvalue : Trimmed isSpace value)
    (hforeign : ∀ line, hasKey key line = true → foreign line = false) (lines : List (List Char)) :
    (setLine key value lines).filter foreign = lines.filter foreign := by
  have hwritten : foreign (key ++ '=' :: value) = false := by
    apply hforeign
    rw [hasKey_written hkey hvalue, decide_eq_true_iff]
  induction lines with
  | nil => simp [setLine, hwritten]
  | cons line lines ih =>
    unfold setLine
    split
    · next hline =>
      have hline' := hforeign line hline
      rw [List.filter_cons_of_neg (by simp [hwritten]), List.filter_cons_of_neg (by simp [hline'])]
    · rw [List.filter_cons, List.filter_cons, ih]

/-- The settings file is a map to its readers, and no write touches a line of another kind. -/
theorem settings_file_is_a_map (text key : List Char) (writes : List (List Char × List Char))
    (hproper : ∀ write ∈ writes, ProperKey write.1 ∧ ProperValue write.2) :
    readSetting (afterWrites text writes) key = (lastWritten key writes).getD (readSetting text key) ∧
      foreignLines writes (afterWrites text writes) = foreignLines writes text := by
  have hread : ∀ done, (∀ write ∈ done, ProperKey write.1 ∧ ProperValue write.2) →
      readSetting (afterWrites text done) key = (lastWritten key done).getD (readSetting text key) := by
    intro done
    induction done using List.reverseRecOn with
    | nil =>
      intro _
      rfl
    | append_singleton done write ih =>
      intro hdone
      obtain ⟨hkey, hvalue⟩ := hdone write (by simp)
      have hbefore := ih fun w hw => hdone w (by simp [hw])
      unfold afterWrites at hbefore ⊢
      rw [List.foldl_append, List.foldl_cons, List.foldl_nil, lastWritten_concat]
      by_cases h : write.1 = key
      · rw [if_pos h, Option.getD_some, ← h, readSetting_write_self hkey hvalue]
      · rw [if_neg h, readSetting_write_ne hkey hvalue h, hbefore]
  have hlines : ∀ done, (∀ write ∈ done, write ∈ writes) →
      foreignLines writes (afterWrites text done) = foreignLines writes text := by
    intro done
    induction done using List.reverseRecOn with
    | nil =>
      intro _
      rfl
    | append_singleton done write ih =>
      intro hdone
      have hmem := hdone write (by simp)
      obtain ⟨hkey, hvalue⟩ := hproper write hmem
      have hbefore := ih fun w hw => hdone w (by simp [hw])
      unfold afterWrites foreignLines at hbefore ⊢
      rw [List.foldl_append, List.foldl_cons, List.foldl_nil, splitLines_write hkey hvalue,
        setLine_foreign hkey hvalue.trimmed, hbefore]
      intro line hline
      rw [List.all_eq_false]
      exact ⟨write, hmem, by simp [hline]⟩
  exact ⟨hread writes hproper, hlines writes fun w hw => hw⟩

/-- Two keys in a file with a comment, one of them written twice. -/
theorem settings_file_is_a_map_twice :
    readSetting (afterWrites "# keys\nA=1\n".toList [(['A'], ['2']), (['B'], ['3']), (['A'], ['4'])]) ['A'] =
      ['4'] := by
  have hproper : ∀ write ∈ [(['A'], ['2']), (['B'], ['3']), (['A'], ['4'])],
      ProperKey write.1 ∧ ProperValue write.2 := by
    have hkey : ∀ c : Char, c ∈ ['A', 'B'] → ProperKey [c] := by
      intro c hc
      simp only [List.mem_cons, List.not_mem_nil, or_false] at hc
      obtain rfl | rfl := hc
      · exact ⟨by decide, ⟨by decide, by decide⟩, List.all_iff_forall_prop.mp (by decide), by decide⟩
      · exact ⟨by decide, ⟨by decide, by decide⟩, List.all_iff_forall_prop.mp (by decide), by decide⟩
    have hvalue : ∀ c : Char, c ∈ ['2', '3', '4'] → ProperValue [c] := by
      intro c hc
      simp only [List.mem_cons, List.not_mem_nil, or_false] at hc
      obtain rfl | rfl | rfl := hc
      · exact ⟨⟨by decide, by decide⟩, List.all_iff_forall_prop.mp (by decide)⟩
      · exact ⟨⟨by decide, by decide⟩, List.all_iff_forall_prop.mp (by decide)⟩
      · exact ⟨⟨by decide, by decide⟩, List.all_iff_forall_prop.mp (by decide)⟩
    intro write hwrite
    simp only [List.mem_cons, List.not_mem_nil, or_false] at hwrite
    obtain rfl | rfl | rfl := hwrite
    · exact ⟨hkey 'A' (by simp), hvalue '2' (by simp)⟩
    · exact ⟨hkey 'B' (by simp), hvalue '3' (by simp)⟩
    · exact ⟨hkey 'A' (by simp), hvalue '4' (by simp)⟩
  exact (settings_file_is_a_map _ ['A'] _ hproper).1

/-! ## Changes of the name -/

/-- Writing a key twice leaves what the second write alone leaves. -/
theorem writeSetting_twice (hkey : ProperKey key) (hvalue : ProperValue value) :
    writeSetting (writeSetting text key value) key value' = writeSetting text key value' := by
  have hfound : hasKey key (key ++ '=' :: value) = true := by
    rw [hasKey_written hkey hvalue.trimmed, decide_eq_true_iff]
  have htwice : ∀ lines, setLine key value' (setLine key value lines) = setLine key value' lines := by
    intro lines
    induction lines with
    | nil => simp [setLine, hfound]
    | cons line lines ih =>
      by_cases hline : hasKey key line = true
      · simp [setLine, hline, hfound]
      · simp [setLine, hline, ih]
  have hlines := @splitLines_write _ _ text hkey hvalue
  unfold writeSetting at hlines ⊢
  rw [hlines, htwice]

/-- The changes of the name, one after the other. -/
def renamed (lib : UrlLibrary) (text : List Char) (names : List (List Char)) : Except UrlError (List Char) :=
  names.foldlM (fun text name => do
    let e ← currentEndpoint lib text
    pure (applyEndpoint text (e.withName name))) text

/-- Of any changes of the name the last one is what the file shows, and it shows nothing else of them. -/
theorem last_name_wins (lib : UrlLibrary) (text : List Char) (u : SplitUrl) (e : Endpoint)
    (hsplit : urlsplit lib (readSetting text databaseUrl) = .ok u)
    (hparse : Endpoint.parse lib (readSetting text databaseUrl) = .ok (some e)) (hplain : PlainHost u)
    (names : List (List Char)) (name : List Char) :
    renamed lib text (names ++ [name]) = .ok (applyEndpoint text (e.withName name)) ∧
      currentEndpoint lib (applyEndpoint text (e.withName name)) =
        .ok { e with name := orElse (trim isSpace name) defaultName } := by
  have he := parse_readable readSetting_oneLine hsplit hparse
  have hcolon : ':' ∉ e.host := fun h => hplain.1 ((mem_host_iff hsplit hparse (by decide) (by decide)).mp h)
  have hopen : '[' ∉ e.host := fun h => hplain.2.1 ((mem_host_iff hsplit hparse (by decide) (by decide)).mp h)
  have hclose : ']' ∉ e.host := fun h => hplain.2.2 ((mem_host_iff hsplit hparse (by decide) (by decide)).mp h)
  have hafter : ∀ name, currentEndpoint lib (applyEndpoint text (e.withName name)) =
      .ok { e with name := orElse (trim isSpace name) defaultName } := by
    intro name
    rw [currentEndpoint_apply (he.withName name), if_neg, if_neg]
    · rfl
    · exact hcolon
    · exact not_or.mpr ⟨hopen, hclose⟩
  have hstep : ∀ first next, applyEndpoint (applyEndpoint text (e.withName first)) (e.withName next) =
      applyEndpoint text (e.withName next) := fun first _ =>
    writeSetting_twice properKey_databaseUrl (properValue_url (he.withName first))
  refine ⟨?_, hafter name⟩
  induction names using List.reverseRecOn generalizing name with
  | nil =>
    unfold renamed
    rw [List.nil_append, List.foldlM_cons, currentEndpoint_of_parse hparse]
    rfl
  | append_singleton names first ih =>
    have hbefore := ih first
    unfold renamed at hbefore ⊢
    rw [List.foldlM_append, hbefore]
    simp only [bind, Except.bind, List.foldlM_cons, List.foldlM_nil, hafter first, pure, Except.pure]
    exact congrArg Except.ok (hstep first name)

/-- Three names, the second of them blank. -/
theorem last_name_wins_thrice :
    renamed asciiLibrary "DATABASE_URL=postgresql://u:p@db:5433/x\n".toList [['a'], [' '], ['b']] =
      .ok "DATABASE_URL=postgresql+psycopg://u:p@db:5433/b\n".toList :=
  (last_name_wins asciiLibrary "DATABASE_URL=postgresql://u:p@db:5433/x\n".toList
    ⟨"postgresql".toList, "u:p@db:5433".toList, "/x".toList, [], []⟩ ⟨['u'], ['p'], ['d', 'b'], 5433, ['x']⟩
    (by decide) (by decide) ⟨by decide, by decide, by decide⟩ [['a'], [' ']] ['b']).1

end NexaHR
