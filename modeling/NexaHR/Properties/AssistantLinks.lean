import NexaHR.Properties.MarkupReading

/-! # Where the links of a reply lead

`safeHref` looks at the address as it is written, the browser at what its rules make of it.

* `hrefs_markdown`: the anchors of a page are the links of its lines that `safeHref` lets pass.
* `safeHref_stays_iff`: what it lets pass stays with the page, or says where it goes, unless two slashes in disguise
  lead out.
* `links_stay_iff`: the same for every link of a reply.
* `anchors_are_written_and_harmless`: every anchor stands in the reply, and leads by web or mail.
-/

namespace NexaHR

open Foundations

set_option autoImplicit false

/-! ## The links of a reply -/

def targetOf? : Piece Char InlineToken → Option (List Char)
  | .found _ (.link _ target) => some target
  | _ => none

/-- The targets of the links in a line. -/
def targetsIn (text : List Char) : List (List Char) := (inlinePattern.pieces text).filterMap targetOf?

/-- The texts of a block that are read for links. -/
def inlineTexts : MarkdownBlock → List (List Char)
  | .p lines => lines
  | .h _ text => [text]
  | .ul items => items
  | .ol items => items
  | .code _ => []
  | .table header rows => rows.flatMap (rowCells header)

def linkTargets (text : List Char) : List (List Char) :=
  ((parseBlocks text).flatMap inlineTexts).flatMap targetsIn

section

variable {O : Type} {b : Browser O}

@[simp] theorem filterMap_textNode (chars : List Char) : (textNode chars).filterMap InlineNode.href? = [] := by
  unfold textNode
  split <;> rfl

theorem filterMap_nodesOf (before : List Char) (pieces : List (Piece Char InlineToken)) :
    (nodesOf b before pieces).filterMap InlineNode.href? = (pieces.filterMap targetOf?).filterMap (safeHref b) := by
  induction pieces generalizing before with
  | nil => exact filterMap_textNode before
  | cons piece pieces ih =>
    cases piece with
    | plain c => exact ih _
    | found whole t =>
      rw [nodesOf, List.filterMap_append, filterMap_textNode, List.nil_append]
      cases t with
      | code inner => exact ih []
      | strong inner => exact ih []
      | em inner => exact ih []
      | link label target =>
        have hpieces : (Piece.found whole (.link label target) :: pieces).filterMap targetOf? =
            target :: pieces.filterMap targetOf? := rfl
        rw [hpieces, tokenNode]
        cases hsafe : safeHref b target with
        | none =>
          rw [List.filterMap_cons_none hsafe, List.filterMap_cons_none (by rfl)]
          exact ih []
        | some href =>
          rw [List.filterMap_cons_some hsafe, List.filterMap_cons_some (by rfl), ih]

theorem filterMap_renderInline (text : List Char) :
    (renderInline b text).filterMap InlineNode.href? = (targetsIn text).filterMap (safeHref b) :=
  filterMap_nodesOf [] _

theorem filterMap_flatten (texts : List (List Char)) :
    (texts.map (renderInline b)).flatten.filterMap InlineNode.href? =
      (texts.flatMap targetsIn).filterMap (safeHref b) := by
  induction texts with
  | nil => rfl
  | cons text texts ih =>
    rw [List.map_cons, List.flatten_cons, List.filterMap_append, ih, filterMap_renderInline, List.flatMap_cons,
      List.filterMap_append]

theorem filterMap_element (block : MarkdownBlock) :
    (markdownElement b block).nodes.filterMap InlineNode.href? =
      ((inlineTexts block).flatMap targetsIn).filterMap (safeHref b) := by
  cases block with
  | p lines => exact filterMap_flatten lines
  | h level text =>
    rw [inlineTexts, List.flatMap_singleton]
    exact filterMap_renderInline text
  | ul items => exact filterMap_flatten items
  | ol items => exact filterMap_flatten items
  | code text => rfl
  | table header rows =>
    have hheader : (header.map InlineNode.text).filterMap InlineNode.href? = [] := by
      rw [List.filterMap_map]
      exact List.filterMap_eq_nil_iff.mpr fun _ _ => rfl
    show (header.map InlineNode.text ++ _).filterMap _ = _
    rw [List.filterMap_append, hheader, List.nil_append, List.map_map, inlineTexts]
    induction rows with
    | nil => rfl
    | cons row rows ih =>
      rw [List.map_cons, List.flatten_cons, List.filterMap_append, ih, List.flatMap_cons, List.flatMap_append,
        List.filterMap_append]
      exact congrArg (· ++ _) (filterMap_flatten _)

/-- The anchors of a page are the links that `safeHref` lets pass. -/
theorem hrefs_markdown (text : List Char) :
    hrefs (markdown b text) = (linkTargets text).filterMap (safeHref b) := by
  unfold hrefs markdown linkTargets
  induction parseBlocks text with
  | nil => rfl
  | cons block blocks ih =>
    rw [List.map_cons, List.flatMap_cons, List.filterMap_append, ih, filterMap_element, List.flatMap_cons,
      List.flatMap_append, List.filterMap_append]

theorem possible_of_mem {text target : List Char} (h : target ∈ targetsIn text) :
    target ≠ [] ∧ ∀ c ∈ target, isJsSpace c = false := by
  obtain ⟨piece, hpiece, htarget⟩ := List.mem_filterMap.mp h
  unfold targetOf? at htarget
  split at htarget
  · next whole label found =>
    cases htarget
    obtain ⟨rest, hrest⟩ := Pattern.mem_pieces_found hpiece
    exact (inlineHere_eq_some hrest).2
  · cases htarget

/-! ## Where they lead -/

/-- An allowed scheme is written in the address. -/
def Declares (href : List Char) : Prop :=
  ∃ name rest, writtenScheme (cleaned href) = some (name, rest) ∧ name ∈ allowedSchemes

/-- The address says where it leads, or stays with the page. -/
def StaysOrDeclares (b : Browser O) (href : List Char) : Prop :=
  Declares href ∨ b.resolve href = some (.origin b.own)

/-- Two slashes lead out that are not written as the two that `safeHref` knows. -/
def Strays (b : Browser O) (target : List Char) : Prop :=
  b.LeadsOut target ∧ ¬['/', '/'] <+: target ∧ (['/'] <+: target ∨ (b.resolve target).isSome = true)

theorem not_leadsOut_of_scheme {address : List Char} {found : List Char × List Char}
    (h : writtenScheme (cleaned address) = some found) : ¬b.LeadsOut address := by
  intro hout
  obtain ⟨rest, hrest, _⟩ := hout
  rw [Browser.writtenScheme_of_slashes hrest] at h
  cases h

theorem staysOrDeclares_iff {address : List Char} (hnone : writtenScheme (cleaned address) = none) :
    StaysOrDeclares b address ↔ ¬b.LeadsOut address := by
  rw [← Browser.resolve_own_iff hnone]
  constructor
  · intro h
    cases h with
    | inl hdeclares =>
      obtain ⟨name, rest, hscheme, _⟩ := hdeclares
      rw [hnone] at hscheme
      cases hscheme
    | inr hown => exact hown
  · exact Or.inr

theorem writtenScheme_slash (l : List Char) : writtenScheme (cleaned ('/' :: l)) = none := by
  have hne : trim isC0OrSpace ('/' :: l) ≠ [] := by
    intro hnil
    have hslash := trim_eq_nil_iff.mp hnil '/' (List.mem_cons_self ..)
    revert hslash
    decide
  obtain ⟨c, rest, hrest⟩ := List.exists_cons_of_ne_nil hne
  have hprefix : trim isC0OrSpace ('/' :: l) <+: '/' :: l := by
    unfold trim
    rw [List.dropWhile_cons_of_neg (by decide)]
    exact List.rdropWhile_prefix _ _
  rw [hrest, List.cons_prefix_cons] at hprefix
  obtain ⟨rfl, _⟩ := hprefix
  unfold cleaned
  rw [hrest, List.filter_cons_of_pos (by decide)]
  rfl

theorem schemeOf_origin_allowed (o : O) : b.schemeOf (.origin o) ∈ allowedSchemes := by
  obtain h | h := Browser.schemeOf_origin (b := b) o
  · rw [h]
    decide
  · rw [h]
    decide

theorem resolve_eq_scheme {address name : List Char} (h : b.resolve address = some (.scheme name)) :
    ∃ rest, writtenScheme (cleaned address) = some (name, rest) := by
  unfold Browser.resolve at h
  split at h
  · next written rest hwritten =>
    split at h
    · cases h
      exact ⟨rest, hwritten⟩
    · cases h
  · split at h
    · obtain ⟨o, _, ho⟩ := Option.map_eq_some_iff.mp h
      cases ho
    · cases h

theorem resolve_eq_origin {address : List Char} {o : O} (h : b.resolve address = some (.origin o)) :
    writtenScheme (cleaned address) = none := by
  unfold Browser.resolve at h
  split at h
  · split at h <;> cases h
  · next hnone => exact hnone

/-- What `safeHref` lets pass stays or says where it leads, unless two slashes in disguise lead out. -/
theorem safeHref_stays_iff {target : List Char} (hne : target ≠ []) (hspace : ∀ c ∈ target, isJsSpace c = false) :
    (∀ href, safeHref b target = some href → StaysOrDeclares b href) ↔ ¬Strays b target := by
  have htrim : trim isJsSpace target = target := by
    rw [trim_eq_self_iff]
    refine ⟨List.dropWhile_eq_self_iff.mpr fun hpos => ?_, List.rdropWhile_eq_self_iff.mpr fun hne => ?_⟩
    · rw [hspace _ (List.getElem_mem hpos)]
      decide
    · rw [hspace _ (List.getLast_mem hne)]
      decide
  unfold safeHref Strays
  rw [htrim]
  dsimp only
  rw [if_neg hne]
  by_cases htwo : ['/', '/'] <+: target
  · rw [if_pos htwo]
    simp [htwo]
  rw [if_neg htwo]
  by_cases hone : ['/'] <+: target
  · obtain ⟨l, hl⟩ := hone
    rw [List.singleton_append] at hl
    have hscheme := writtenScheme_slash l
    rw [hl] at hscheme
    rw [if_pos ⟨l, hl⟩]
    simp only [Option.some.injEq, forall_eq', staysOrDeclares_iff hscheme]
    constructor
    · intro hstays hstrays
      exact hstays hstrays.1
    · intro hnot hout
      exact hnot ⟨hout, htwo, Or.inl ⟨l, hl⟩⟩
  rw [if_neg hone]
  cases hresolve : b.resolve target with
  | none => simp [hone]
  | some destination =>
    dsimp only
    cases destination with
    | scheme name =>
      obtain ⟨rest, hwritten⟩ := resolve_eq_scheme hresolve
      have hstays := not_leadsOut_of_scheme (b := b) hwritten
      constructor
      · intro _ hstrays
        exact hstays hstrays.1
      · intro _ href hhref
        split at hhref
        · next hallowed =>
          cases hhref
          exact Or.inl ⟨name, rest, hwritten, hallowed⟩
        · cases hhref
    | origin o =>
      rw [if_pos (schemeOf_origin_allowed o)]
      simp only [Option.some.injEq, forall_eq', staysOrDeclares_iff (resolve_eq_origin hresolve)]
      simp [htwo, hone]

/-- Every anchor of a reply stays with the page or says where it leads just where no link strays. -/
theorem links_stay_iff (b : Browser O) (text : List Char) :
    (∀ href ∈ hrefs (markdown b text), StaysOrDeclares b href) ↔ ∀ target ∈ linkTargets text, ¬Strays b target := by
  rw [hrefs_markdown]
  constructor
  · intro h target htarget
    obtain ⟨line, _, hline⟩ := List.mem_flatMap.mp htarget
    obtain ⟨hne, hspace⟩ := possible_of_mem hline
    rw [← safeHref_stays_iff hne hspace]
    intro href hhref
    exact h href (List.mem_filterMap.mpr ⟨target, htarget, hhref⟩)
  · intro h href hhref
    obtain ⟨target, htarget, hsafe⟩ := List.mem_filterMap.mp hhref
    obtain ⟨line, _, hline⟩ := List.mem_flatMap.mp htarget
    obtain ⟨hne, hspace⟩ := possible_of_mem hline
    exact (safeHref_stays_iff hne hspace).mpr (h target htarget) href hsafe

end

/-- A browser that takes the host as it is written. -/
def plainBrowser : Browser (List Char) where
  secure := true
  own := ['a', 'p', 'p', '.', 'e', 'x']
  authority := fun rest => some (rest.takeWhile fun c => c ≠ '/' && c ≠ '?' && c ≠ '#' && c ≠ '\\')
  readable := fun _ _ => true

/-- `[x](/\evil.com)` -/
def disguisedLink : List Char :=
  ['[', 'x', ']', '(', '/', '\\', 'e', 'v', 'i', 'l', '.', 'c', 'o', 'm', ')']

theorem disguised_link_leaves :
    ¬∀ href ∈ hrefs (markdown plainBrowser disguisedLink), StaysOrDeclares plainBrowser href := by
  intro h
  have hhref := h ['/', '\\', 'e', 'v', 'i', 'l', '.', 'c', 'o', 'm'] (by decide)
  rw [staysOrDeclares_iff (by decide)] at hhref
  exact hhref ⟨['e', 'v', 'i', 'l', '.', 'c', 'o', 'm'], by decide, by decide⟩

/-! ## Whatever is written -/

/-- The texts of a line that may become texts of a block. -/
def kindTexts : LineKind → List (List Char)
  | .heading _ text => [text]
  | .row cells => cells
  | .item _ text => [text]
  | .text line => [line]
  | _ => []

theorem infix_afterBlanks {l text : List Char} (h : afterBlanks l = some text) : text <:+: l := by
  obtain ⟨c, rest, rfl, _, rfl⟩ := afterBlanks_eq_some h
  exact ((List.dropWhile_suffix _).trans (List.suffix_cons c rest)).isInfix

theorem infix_trimmedLine (raw : List Char) : trimmedLine raw <:+: raw :=
  (trim_part _).trans (List.rdropWhile_prefix _ _).isInfix

theorem infix_heading {line text : List Char} {level : Nat} (h : headingOf line = some (level, text)) :
    text <:+: line := by
  unfold headingOf at h
  dsimp only at h
  split at h
  · obtain ⟨found, hfound, heq⟩ := Option.map_eq_some_iff.mp h
    cases heq
    exact (infix_afterBlanks hfound).trans (List.dropWhile_suffix _).isInfix
  · cases h

theorem infix_item {line text : List Char} (h : bulletOf line = some text ∨ numberedOf line = some text) :
    text <:+: line := by
  obtain hbullet | hnumbered := h
  · unfold bulletOf at hbullet
    split at hbullet
    · next c rest hline =>
      split at hbullet
      · have hrest : rest <:+: line.dropWhile isJsSpace := by
          rw [hline]
          exact (List.suffix_cons c rest).isInfix
        exact (infix_afterBlanks hbullet).trans (hrest.trans (List.dropWhile_suffix _).isInfix)
      · cases hbullet
    · cases hbullet
  · unfold numberedOf at hnumbered
    dsimp only at hnumbered
    split at hnumbered
    · cases hnumbered
    split at hnumbered
    · next c rest hline =>
      split at hnumbered
      · have hrest : rest <:+: (line.dropWhile isJsSpace).dropWhile Char.isDigit := by
          rw [hline]
          exact (List.suffix_cons c rest).isInfix
        have hstart : (line.dropWhile isJsSpace).dropWhile Char.isDigit <:+: line :=
          ((List.dropWhile_suffix _).trans (List.dropWhile_suffix _)).isInfix
        exact (infix_afterBlanks hnumbered).trans (hrest.trans hstart)
      · cases hnumbered
    · cases hnumbered

theorem infix_cell {line cell : List Char} (h : cell ∈ cellsOf line) : cell <:+: line := by
  unfold cellsOf at h
  obtain ⟨part, hpart, rfl⟩ := List.mem_map.mp h
  have hinner : line.tail.dropLast <:+: line :=
    (List.dropLast_prefix _).isInfix.trans (List.tail_suffix line).isInfix
  exact (trim_part part).trans ((infix_splitOn hpart).trans hinner)

theorem infix_kindTexts {raw text : List Char} (h : text ∈ kindTexts (lineKind raw)) : text <:+: raw := by
  have hfits := lineKind_fits raw
  cases hkind : lineKind raw with
  | fence => simp [hkind, kindTexts] at h
  | separator => simp [hkind, kindTexts] at h
  | blank => simp [hkind, kindTexts] at h
  | heading level body =>
    rw [hkind] at h hfits
    rw [kindTexts, List.mem_singleton] at h
    exact h ▸ (infix_heading hfits).trans (infix_trimmedLine raw)
  | row cells =>
    rw [hkind] at h hfits
    have hcell : text ∈ cellsOf (trimmedLine raw) := hfits.2.1 ▸ h
    exact (infix_cell hcell).trans (infix_trimmedLine raw)
  | item ordered body =>
    rw [hkind] at h hfits
    rw [kindTexts, List.mem_singleton] at h
    obtain ⟨found, rfl, hfound⟩ := hfits
    exact h ▸ (trim_part found).trans ((infix_item hfound).trans (List.rdropWhile_prefix _ _).isInfix)
  | text line =>
    rw [hkind] at h hfits
    rw [kindTexts, List.mem_singleton] at h
    exact h ▸ hfits.symm ▸ infix_trimmedLine raw

/-- All that is read for links in the blocks, the open ones among them. -/
structure AllTexts (P : List Char → Prop) (s : ParseState) : Prop where
  blocks : ∀ block ∈ s.blocks, ∀ text ∈ inlineTexts block, P text
  paragraph : ∀ text ∈ s.paragraph, P text
  list : ∀ l, s.list = some l → ∀ text ∈ l.items, P text
  table : ∀ t, s.table = some t → ∀ row ∈ t.rows, ∀ text ∈ row, P text

namespace AllTexts

variable {P : List Char → Prop} {s : ParseState}

theorem push (h : AllTexts P s) {block : MarkdownBlock} (hblock : ∀ text ∈ inlineTexts block, P text) :
    ∀ other ∈ s.blocks ++ [block], ∀ text ∈ inlineTexts other, P text := by
  intro other hother
  cases List.mem_append.mp hother with
  | inl hold => exact h.blocks other hold
  | inr hnew => exact List.mem_singleton.mp hnew ▸ hblock

theorem flushParagraph (h : AllTexts P s) : AllTexts P s.flushParagraph := by
  unfold ParseState.flushParagraph
  split
  · exact h
  · exact ⟨h.push h.paragraph, by simp, h.list, h.table⟩

theorem flushList (h : AllTexts P s) : AllTexts P s.flushList := by
  unfold ParseState.flushList
  split
  · next l hlist =>
    refine ⟨h.push ?_, h.paragraph, by simp, h.table⟩
    split
    · exact h.list l hlist
    · exact h.list l hlist
  · exact h

theorem flushTable (hnil : P []) (h : AllTexts P s) : AllTexts P s.flushTable := by
  unfold ParseState.flushTable
  split
  · next t htable =>
    refine ⟨h.push ?_, h.paragraph, h.list, by simp⟩
    intro text htext
    obtain ⟨row, hrow, hcell⟩ := List.mem_flatMap.mp htext
    obtain ⟨c, _, rfl⟩ := List.mem_map.mp hcell
    -- a row that is too short is filled with empty cells
    rw [List.getD_eq_getElem?_getD]
    cases hget : row[c]? with
    | none => exact hnil
    | some cell => exact h.table t htable row hrow cell (List.mem_of_getElem? hget)
  · exact h

theorem flushAll (hnil : P []) (h : AllTexts P s) : AllTexts P s.flushAll :=
  h.flushParagraph.flushList.flushTable hnil

theorem closeCode (h : AllTexts P s) : AllTexts P s.closeCode := by
  unfold ParseState.closeCode
  split
  · exact ⟨h.push (by simp [inlineTexts]), h.paragraph, h.list, h.table⟩
  · exact h

theorem addRow (h : AllTexts P s) {cells : List (List Char)} (hcells : ∀ cell ∈ cells, P cell) :
    AllTexts P (s.addRow cells) := by
  unfold ParseState.addRow
  split
  · refine ⟨h.blocks, h.paragraph, h.list, ?_⟩
    intro t ht
    cases ht
    simp
  · next t htable =>
    refine ⟨h.blocks, h.paragraph, h.list, ?_⟩
    intro grown hgrown
    cases hgrown
    intro row hrow
    cases List.mem_append.mp hrow with
    | inl hold => exact h.table t htable row hold
    | inr hnew => exact List.mem_singleton.mp hnew ▸ hcells

theorem addItem (h : AllTexts P s) {text : List Char} (ordered : Bool) (htext : P text) :
    AllTexts P (s.addItem ordered text) := by
  have hone : ∀ other ∈ [text], P other := by
    intro other hother
    exact List.mem_singleton.mp hother ▸ htext
  unfold ParseState.addItem
  split
  · next l hlist =>
    split
    · refine ⟨h.blocks, h.paragraph, ?_, h.table⟩
      intro grown hgrown
      cases hgrown
      intro other hother
      cases List.mem_append.mp hother with
      | inl hold => exact h.list l hlist other hold
      | inr hnew => exact hone other hnew
    · refine ⟨h.flushList.blocks, h.flushList.paragraph, ?_, h.flushList.table⟩
      intro started hstarted
      cases hstarted
      exact hone
  · refine ⟨h.blocks, h.paragraph, ?_, h.table⟩
    intro started hstarted
    cases hstarted
    exact hone

theorem step (hnil : P []) (h : AllTexts P s) {raw : List Char} (hraw : ∀ text ∈ kindTexts (lineKind raw), P text) :
    AllTexts P (s.step raw) := by
  unfold ParseState.step
  cases hcode : s.code with
  | some lines =>
    dsimp only
    split
    · exact h.closeCode
    · exact ⟨h.blocks, h.paragraph, h.list, h.table⟩
  | none =>
    dsimp only
    cases hkind : lineKind raw with
    | fence =>
      have hflushed := h.flushAll hnil
      exact ⟨hflushed.blocks, hflushed.paragraph, hflushed.list, hflushed.table⟩
    | heading level text =>
      rw [hkind] at hraw
      have hflushed := h.flushAll hnil
      exact ⟨hflushed.push hraw, hflushed.paragraph, hflushed.list, hflushed.table⟩
    | separator => exact h
    | row cells =>
      rw [hkind] at hraw
      exact h.flushParagraph.flushList.addRow hraw
    | item ordered text =>
      rw [hkind] at hraw
      exact (h.flushTable hnil).flushParagraph.addItem ordered (hraw text (by simp [kindTexts]))
    | blank => exact (h.flushTable hnil).flushList.flushParagraph
    | text line =>
      rw [hkind] at hraw
      have hflushed := (h.flushTable hnil).flushList
      refine ⟨hflushed.blocks, ?_, hflushed.list, hflushed.table⟩
      intro other hother
      cases List.mem_append.mp hother with
      | inl hold => exact hflushed.paragraph other hold
      | inr hnew => exact hraw other hnew

theorem lines (hnil : P []) (h : AllTexts P s) (lines : List (List Char))
    (hlines : ∀ raw ∈ lines, ∀ text ∈ kindTexts (lineKind raw), P text) :
    AllTexts P (lines.foldl ParseState.step s) := by
  induction lines generalizing s with
  | nil => exact h
  | cons raw lines ih =>
    rw [List.forall_mem_cons] at hlines
    exact ih (h.step hnil hlines.1) hlines.2

end AllTexts

/-- The texts of the blocks are parts of the reply. -/
theorem infix_block {reply text : List Char} {block : MarkdownBlock} (hblock : block ∈ parseBlocks reply)
    (htext : text ∈ inlineTexts block) : text <:+: reply := by
  have hstart : AllTexts (· <:+: reply) {} := ⟨by simp, by simp, by simp, by simp⟩
  have hnil : (fun l => l <:+: reply) [] := List.nil_infix
  have hrun := hstart.lines hnil (reply.splitOn '\n') fun raw hraw text htext =>
    (infix_kindTexts htext).trans (infix_splitOn hraw)
  exact (hrun.flushAll hnil).closeCode.blocks block hblock text htext

theorem infix_target {text target : List Char} (h : target ∈ targetsIn text) : target <:+: text := by
  obtain ⟨piece, hpiece, htarget⟩ := List.mem_filterMap.mp h
  have hpart : piece.whole <:+: text := by
    have hwhole := inlinePattern.pieces_whole text
    rw [← hwhole]
    exact List.infix_of_mem_flatten (List.mem_map_of_mem hpiece)
  unfold targetOf? at htarget
  split at htarget
  · next whole label found =>
    cases htarget
    obtain ⟨rest, hrest⟩ := Pattern.mem_pieces_found hpiece
    have hsource : whole = (InlineToken.link label target).source :=
      List.append_cancel_right (inlineHere_eq_some hrest).1
    have htoken : target <:+: (InlineToken.link label target).source :=
      ⟨'[' :: (label ++ [']', '(']), [')'], by simp [InlineToken.source]⟩
    exact htoken.trans (hsource ▸ hpart)
  · cases htarget

section

variable {O : Type} {b : Browser O}

theorem safeHref_eq_some {raw href : List Char} (h : safeHref b raw = some href) :
    href = trim isJsSpace raw ∧
      ∀ destination, b.resolve href = some destination → b.schemeOf destination ∈ allowedSchemes := by
  unfold safeHref at h
  dsimp only at h
  split at h
  · cases h
  split at h
  · cases h
  split at h
  · next hslash =>
    cases h
    obtain ⟨l, hl⟩ := hslash
    refine ⟨rfl, fun destination hdestination => ?_⟩
    have hscheme := writtenScheme_slash l
    rw [← List.singleton_append, hl] at hscheme
    cases destination with
    | origin o => exact schemeOf_origin_allowed o
    | scheme name =>
      obtain ⟨rest, hwritten⟩ := resolve_eq_scheme hdestination
      rw [hscheme] at hwritten
      cases hwritten
  split at h
  · next destination hdestination =>
    split at h
    · next hallowed =>
      cases h
      refine ⟨rfl, fun other hother => ?_⟩
      rw [hdestination] at hother
      cases hother
      exact hallowed
    · cases h
  · cases h

/-- Whatever an assistant writes, the address of an anchor stands in its reply and leads by web or mail only. -/
theorem anchors_are_written_and_harmless (b : Browser O) (reply : List Char) :
    ∀ href ∈ hrefs (markdown b reply), href <:+: reply ∧
      ∀ destination, b.resolve href = some destination → b.schemeOf destination ∈ allowedSchemes := by
  intro href hhref
  rw [hrefs_markdown] at hhref
  obtain ⟨target, htarget, hsafe⟩ := List.mem_filterMap.mp hhref
  obtain ⟨text, htext, hin⟩ := List.mem_flatMap.mp htarget
  obtain ⟨block, hblock, hinline⟩ := List.mem_flatMap.mp htext
  obtain ⟨htrim, hallowed⟩ := safeHref_eq_some hsafe
  have hpart : href <:+: target := htrim ▸ trim_part target
  exact ⟨hpart.trans ((infix_target hin).trans (infix_block hblock hinline)), hallowed⟩

end

/-- An assistant writes a link to mail. -/
theorem mail_anchor_is_harmless :
    ['m', 'a', 'i', 'l', 't', 'o', ':', 'a'] <:+: "[x](mailto:a)".toList ∧
      ∀ destination, plainBrowser.resolve ['m', 'a', 'i', 'l', 't', 'o', ':', 'a'] = some destination →
        plainBrowser.schemeOf destination ∈ allowedSchemes :=
  anchors_are_written_and_harmless plainBrowser "[x](mailto:a)".toList ['m', 'a', 'i', 'l', 't', 'o', ':', 'a']
    (by decide)

end NexaHR
