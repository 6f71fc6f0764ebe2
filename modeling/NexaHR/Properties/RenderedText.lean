import Mathlib.Data.List.Flatten
import NexaHR.Properties.MarkupReading

/-! # What of a reply is shown

The parser keeps at most one block open, and a line only adds to what stands at the end. So the page shows line after
line, and compares with the reading of the reply.

* `Tidy`: what is open at a time.
* `shown_step`, `shown_markdown`: what a line adds to the page, and what a page shows.
* `rendering_keeps_text_iff`: the page keeps the text unless a fence line, or a row that is too long, holds some of it.
-/

namespace NexaHR

open Foundations

set_option autoImplicit false

section

variable {O : Type} (b : Browser O)

/-- What the page shows of a line. -/
def LineRole.shown : LineRole → List Char
  | fence _ => []
  | verbatim raw => solid raw
  | heading _ body => inlineContent b body
  | separator _ => []
  | header cells => cells.flatMap solid
  | row width cells => (cells.take width).flatMap (inlineContent b)
  | item _ body => inlineContent b body
  | blank => []
  | text line => inlineContent b line

/-! ## What a block shows -/

def linesShown (lines : List (List Char)) : List Char := lines.flatMap (inlineContent b)

def tableShown (t : OpenTable) : List Char :=
  t.header.flatMap solid ++ t.rows.flatMap fun row => linesShown b (row.take t.header.length)

def blockShown (block : MarkdownBlock) : List Char :=
  solid ((markdownElement b block).nodes.flatMap InlineNode.shown)

variable {b}

theorem solid_lines (lines : List (List Char)) :
    solid ((lines.map (renderInline b)).flatten.flatMap InlineNode.shown) = linesShown b lines := by
  unfold linesShown
  induction lines with
  | nil => rfl
  | cons line lines ih =>
    rw [List.map_cons, List.flatten_cons, List.flatMap_append, solid_append, ih, solid_renderInline, List.flatMap_cons]

/-- The columns without a cell show nothing. -/
theorem linesShown_rowCells (header row : List (List Char)) :
    linesShown b (rowCells header row) = linesShown b (row.take header.length) := by
  have hcells : ∀ n (row : List (List Char)), linesShown b ((List.range n).map fun c => row.getD c []) =
      linesShown b (row.take n) := by
    intro n
    induction n with
    | zero => intro row; rfl
    | succ n ih =>
      intro row
      rw [List.range_succ_eq_map, List.map_cons, List.map_map]
      cases row with
      | nil =>
        have hnil := ih []
        rw [List.take_nil] at hnil ⊢
        exact hnil
      | cons cell row =>
        rw [List.take_succ_cons]
        exact congrArg (inlineContent b cell ++ ·) (ih row)
  exact hcells header.length row

theorem blockShown_table (t : OpenTable) : blockShown b (.table t.header t.rows) = tableShown b t := by
  have hheader : (t.header.map InlineNode.text).flatMap InlineNode.shown = t.header.flatten := by
    rw [List.flatMap_map]
    exact List.flatMap_id
  have hrows : ∀ rows : List (List (List Char)),
      solid (((rows.map fun row => (rowCells t.header row).map (renderInline b)).map List.flatten).flatten.flatMap
        InlineNode.shown) = rows.flatMap fun row => linesShown b (row.take t.header.length) := by
    intro rows
    induction rows with
    | nil => rfl
    | cons row rows ih =>
      rw [List.map_cons, List.map_cons, List.flatten_cons, List.flatMap_append, solid_append, ih, solid_lines,
        linesShown_rowCells, List.flatMap_cons]
  show solid ((t.header.map InlineNode.text ++ _).flatMap InlineNode.shown) = _
  rw [List.flatMap_append, solid_append, hheader, solid_flatten, hrows]
  rfl

theorem blockShown_code (lines : List (List Char)) :
    blockShown b (.code (ParseState.joinLines lines)) = lines.flatMap solid := by
  rw [← solid_joinLines]
  show solid ([InlineNode.code _].flatMap InlineNode.shown) = _
  rw [List.flatMap_singleton]
  rfl

theorem blockShown_list (l : OpenList) : blockShown b (if l.ordered then .ol l.items else .ul l.items) =
    linesShown b l.items := by
  split
  · exact solid_lines l.items
  · exact solid_lines l.items

/-! ## What is open -/

/-- At most one block is open. -/
structure Tidy (s : ParseState) : Prop where
  list : s.list ≠ none → s.paragraph = []
  table : s.table ≠ none → s.paragraph = [] ∧ s.list = none
  code : s.code ≠ none → s.paragraph = [] ∧ s.list = none ∧ s.table = none

variable (b) in
/-- What the finished and the open blocks show. -/
def stateShown (s : ParseState) : List Char :=
  s.blocks.flatMap (blockShown b) ++ (linesShown b s.paragraph ++
    ((s.list.map fun l => linesShown b l.items).getD [] ++
      ((s.table.map (tableShown b)).getD [] ++ (s.code.map fun lines => lines.flatMap solid).getD [])))

variable {s : ParseState}

namespace ParseState

@[simp] theorem flushParagraph_paragraph : s.flushParagraph.paragraph = [] := by
  unfold flushParagraph
  split
  · assumption
  · rfl

@[simp] theorem flushParagraph_list : s.flushParagraph.list = s.list := by
  unfold flushParagraph
  split <;> rfl

@[simp] theorem flushParagraph_table : s.flushParagraph.table = s.table := by
  unfold flushParagraph
  split <;> rfl

@[simp] theorem flushParagraph_code : s.flushParagraph.code = s.code := by
  unfold flushParagraph
  split <;> rfl

@[simp] theorem flushList_paragraph : s.flushList.paragraph = s.paragraph := by
  unfold flushList
  split <;> rfl

@[simp] theorem flushList_list : s.flushList.list = none := by
  unfold flushList
  split
  · rfl
  · assumption

@[simp] theorem flushList_table : s.flushList.table = s.table := by
  unfold flushList
  split <;> rfl

@[simp] theorem flushList_code : s.flushList.code = s.code := by
  unfold flushList
  split <;> rfl

@[simp] theorem flushTable_paragraph : s.flushTable.paragraph = s.paragraph := by
  unfold flushTable
  split <;> rfl

@[simp] theorem flushTable_list : s.flushTable.list = s.list := by
  unfold flushTable
  split <;> rfl

@[simp] theorem flushTable_table : s.flushTable.table = none := by
  unfold flushTable
  split
  · rfl
  · assumption

@[simp] theorem flushTable_code : s.flushTable.code = s.code := by
  unfold flushTable
  split <;> rfl

@[simp] theorem addRow_paragraph (cells : List (List Char)) : (s.addRow cells).paragraph = s.paragraph := by
  unfold addRow
  split <;> rfl

@[simp] theorem addRow_list (cells : List (List Char)) : (s.addRow cells).list = s.list := by
  unfold addRow
  split <;> rfl

@[simp] theorem addRow_code (cells : List (List Char)) : (s.addRow cells).code = s.code := by
  unfold addRow
  split <;> rfl

@[simp] theorem addItem_paragraph (ordered : Bool) (body : List Char) :
    (s.addItem ordered body).paragraph = s.paragraph := by
  unfold addItem
  split
  · split
    · rfl
    · exact flushList_paragraph
  · rfl

@[simp] theorem addItem_table (ordered : Bool) (body : List Char) : (s.addItem ordered body).table = s.table := by
  unfold addItem
  split
  · split
    · rfl
    · exact flushList_table
  · rfl

@[simp] theorem addItem_code (ordered : Bool) (body : List Char) : (s.addItem ordered body).code = s.code := by
  unfold addItem
  split
  · split
    · rfl
    · exact flushList_code
  · rfl

end ParseState

/-! ## Closing a block shows the same -/

theorem shown_flushParagraph : stateShown b s.flushParagraph = stateShown b s := by
  unfold ParseState.flushParagraph
  split
  · rfl
  · have hp : blockShown b (.p s.paragraph) = linesShown b s.paragraph := solid_lines _
    simp [stateShown, List.flatMap_append, hp, linesShown]

theorem shown_flushList (h : s.list ≠ none → s.paragraph = []) : stateShown b s.flushList = stateShown b s := by
  unfold ParseState.flushList
  split
  · next l hlist =>
    have hp : s.paragraph = [] := h (by rw [hlist]; exact Option.some_ne_none l)
    simp [stateShown, List.flatMap_append, blockShown_list, hlist, hp, linesShown]
  · rfl

theorem shown_flushTable (h : s.table ≠ none → s.paragraph = [] ∧ s.list = none) :
    stateShown b s.flushTable = stateShown b s := by
  unfold ParseState.flushTable
  split
  · next t htable =>
    obtain ⟨hp, hl⟩ := h (by rw [htable]; exact Option.some_ne_none t)
    simp [stateShown, List.flatMap_append, blockShown_table, htable, hp, hl, linesShown]
  · rfl

theorem shown_closeCode (h : s.code ≠ none → s.paragraph = [] ∧ s.list = none ∧ s.table = none) :
    stateShown b s.closeCode = stateShown b s := by
  unfold ParseState.closeCode
  split
  · next lines hcode =>
    obtain ⟨hp, hl, ht⟩ := h (by rw [hcode]; exact Option.some_ne_none lines)
    simp [stateShown, List.flatMap_append, blockShown_code, hcode, hp, hl, ht, linesShown]
  · rfl

theorem shown_flushAll : stateShown b s.flushAll = stateShown b s := by
  unfold ParseState.flushAll
  rw [shown_flushTable (by simp), shown_flushList (by simp), shown_flushParagraph]

/-! ## One line -/

/-- The width of the open table. -/
def openWidth (s : ParseState) : Option Nat := s.table.map fun t => t.header.length

theorem shown_addRow (cells : List (List Char)) (hcode : s.code = none) :
    stateShown b (s.addRow cells) = stateShown b s ++
      (match openWidth s with | some n => LineRole.row n cells | none => LineRole.header cells).shown b := by
  unfold ParseState.addRow openWidth
  cases htable : s.table with
  | none => simp [stateShown, htable, hcode, tableShown, LineRole.shown]
  | some t =>
    simp [stateShown, htable, hcode, tableShown, LineRole.shown, List.flatMap_append, linesShown]

theorem shown_addItem (ordered : Bool) (body : List Char) (hp : s.paragraph = []) (htable : s.table = none)
    (hcode : s.code = none) :
    stateShown b (s.addItem ordered body) = stateShown b s ++ inlineContent b body := by
  unfold ParseState.addItem
  cases hlist : s.list with
  | none => simp [stateShown, hlist, htable, hcode, linesShown]
  | some l =>
    dsimp only
    split
    · simp [stateShown, hlist, htable, hcode, linesShown, List.flatMap_append]
    · rw [← @shown_flushList _ b s fun _ => hp]
      simp [stateShown, htable, hcode, hp, linesShown]

/-- A line adds to the page what it shows where it stands. -/
theorem shown_step (h : Tidy s) (raw : List Char) :
    stateShown b (s.step raw) = stateShown b s ++ (lineRole s.code.isSome (openWidth s) raw).shown b := by
  unfold ParseState.step lineRole
  cases hcode : s.code with
  | some lines =>
    obtain ⟨hp, hl, ht⟩ := h.code (by rw [hcode]; exact Option.some_ne_none lines)
    have hverbatim : stateShown b { s with code := some (lines ++ [raw]) } = stateShown b s ++ solid raw := by
      simp [stateShown, hp, hl, ht, hcode, linesShown, List.flatMap_append]
    cases hkind : lineKind raw with
    | fence =>
      dsimp only
      rw [shown_closeCode h.code]
      exact (List.append_nil _).symm
    | heading level body => exact hverbatim
    | separator => exact hverbatim
    | row cells => exact hverbatim
    | item ordered body => exact hverbatim
    | blank => exact hverbatim
    | text line => exact hverbatim
  | none =>
    cases hkind : lineKind raw with
    | fence =>
      dsimp only
      rw [← @shown_flushAll _ b s]
      simp [stateShown, ParseState.flushAll, hcode, LineRole.shown]
    | heading level body =>
      have hblock : blockShown b (.h level body) = inlineContent b body := solid_renderInline body
      dsimp only
      rw [← @shown_flushAll _ b s]
      simp [stateShown, ParseState.flushAll, hcode, LineRole.shown, hblock, List.flatMap_append, linesShown]
    | separator => exact (List.append_nil _).symm
    | row cells =>
      dsimp only
      rw [shown_addRow cells (by simp [hcode]), shown_flushList (by simp), shown_flushParagraph]
      simp only [openWidth, ParseState.flushList_table, ParseState.flushParagraph_table]
      rfl
    | item ordered body =>
      dsimp only
      rw [shown_addItem ordered body (by simp) (by simp) (by simp [hcode]), shown_flushParagraph,
        shown_flushTable h.table]
      rfl
    | blank =>
      dsimp only
      rw [shown_flushParagraph, shown_flushList (by simpa using h.list), shown_flushTable h.table]
      exact (List.append_nil _).symm
    | text line =>
      dsimp only
      rw [← shown_flushTable h.table, ← @shown_flushList _ b s.flushTable (by simpa using h.list)]
      simp [stateShown, hcode, LineRole.shown, linesShown, List.flatMap_append]

/-- A state with nothing open but perhaps a paragraph. -/
theorem tidy_of_closed (hlist : s.list = none) (htable : s.table = none) (hcode : s.code = none) : Tidy s where
  list := fun h => absurd hlist h
  table := fun h => absurd htable h
  code := fun h => absurd hcode h

theorem tidy_step (h : Tidy s) (raw : List Char) : Tidy (s.step raw) := by
  unfold ParseState.step
  cases hcode : s.code with
  | some lines =>
    obtain ⟨hp, hl, ht⟩ := h.code (by rw [hcode]; exact Option.some_ne_none lines)
    have hverbatim : Tidy { s with code := some (lines ++ [raw]) } := ⟨h.list, h.table, fun _ => ⟨hp, hl, ht⟩⟩
    cases hkind : lineKind raw with
    | fence =>
      unfold ParseState.closeCode
      rw [hcode]
      exact tidy_of_closed hl ht rfl
    | heading level body => exact hverbatim
    | separator => exact hverbatim
    | row cells => exact hverbatim
    | item ordered body => exact hverbatim
    | blank => exact hverbatim
    | text line => exact hverbatim
  | none =>
    cases hkind : lineKind raw with
    | fence => exact ⟨fun _ => by simp [ParseState.flushAll], fun _ => by simp [ParseState.flushAll],
        fun _ => by simp [ParseState.flushAll]⟩
    | heading level body =>
      exact tidy_of_closed (by simp [ParseState.flushAll]) (by simp [ParseState.flushAll])
        (by simp [ParseState.flushAll, hcode])
    | separator => exact h
    | row cells => exact ⟨fun _ => by simp, fun _ => by simp, fun hne => absurd (by simp [hcode]) hne⟩
    | item ordered body =>
      exact ⟨fun _ => by simp, fun hne => absurd (by simp) hne, fun hne => absurd (by simp [hcode]) hne⟩
    | blank => exact tidy_of_closed (by simp) (by simp) (by simp [hcode])
    | text line => exact tidy_of_closed (by simp) (by simp) (by simp [hcode])

/-- What a line leaves open. -/
theorem open_step (h : Tidy s) (raw : List Char) :
    ((s.step raw).code.isSome, openWidth (s.step raw)) = leavesOpen s.code.isSome (openWidth s) raw := by
  unfold ParseState.step leavesOpen openWidth
  cases hcode : s.code with
  | some lines =>
    obtain ⟨hp, hl, ht⟩ := h.code (by rw [hcode]; exact Option.some_ne_none lines)
    cases hkind : lineKind raw with
    | fence => simp [ParseState.closeCode, hcode, ht]
    | heading level body => simp [ht]
    | separator => simp [ht]
    | row cells => simp [ht]
    | item ordered body => simp [ht]
    | blank => simp [ht]
    | text line => simp [ht]
  | none =>
    cases hkind : lineKind raw with
    | fence => simp [ParseState.flushAll]
    | heading level body => simp [ParseState.flushAll, hcode]
    | separator => simp [hcode]
    | row cells =>
      cases htable : s.table with
      | none => simp [ParseState.addRow, htable, hcode]
      | some t => simp [ParseState.addRow, htable, hcode]
    | item ordered body => simp [hcode]
    | blank => simp [hcode]
    | text line => simp [hcode]

/-! ## A whole reply -/

theorem shown_lines (h : Tidy s) (lines : List (List Char)) :
    Tidy (lines.foldl ParseState.step s) ∧
      stateShown b (lines.foldl ParseState.step s) =
        stateShown b s ++ (lineRoles s.code.isSome (openWidth s) lines).flatMap (LineRole.shown b) := by
  induction lines generalizing s with
  | nil => exact ⟨h, (List.append_nil _).symm⟩
  | cons raw lines ih =>
    obtain ⟨htidy, hshown⟩ := ih (tidy_step h raw)
    refine ⟨htidy, ?_⟩
    have hopen := open_step h raw
    rw [List.foldl_cons, hshown, shown_step h, lineRoles, List.flatMap_cons, ← hopen, List.append_assoc]

/-- In the end nothing is open. -/
theorem shown_finished (s : ParseState) :
    s.flushAll.closeCode.blocks.flatMap (blockShown b) = stateShown b s := by
  rw [← @shown_flushAll _ b s, ← @shown_closeCode _ b s.flushAll (by simp [ParseState.flushAll])]
  unfold ParseState.closeCode
  split
  · simp [stateShown, ParseState.flushAll, linesShown]
  · next hcode =>
    have hnone : s.code = none := by simpa [ParseState.flushAll] using hcode
    simp [stateShown, ParseState.flushAll, linesShown, hnone]

/-- What a page shows of a reply. -/
theorem shown_markdown (text : List Char) :
    solid (visible (markdown b text)) = (rolesOf text).flatMap (LineRole.shown b) := by
  obtain ⟨_, hshown⟩ := @shown_lines _ b {} (tidy_of_closed rfl rfl rfl) (text.splitOn '\n')
  have hblocks : solid (visible (markdown b text)) = (parseBlocks text).flatMap (blockShown b) := by
    unfold visible markdown
    rw [List.flatMap_map, List.flatMap_assoc, solid_flatMap]
    rfl
  rw [hblocks, parseBlocks, shown_finished, hshown]
  rfl

/-! ## What the page keeps -/

variable (b) in
/-- The text of a line that the page drops. -/
def LineRole.hidden : LineRole → List Char
  | fence info => (solid info).filter (· ≠ '`')
  | row width cells => (cells.drop width).flatMap (inlineContent b)
  | _ => []

variable (b) in
/-- A line that hides no text where it stands. -/
def LineRole.Whole : LineRole → Prop
  | fence info => ∀ c ∈ info, c = '`' ∨ isJsSpace c = true
  | row width cells => ∀ cell ∈ cells.drop width, ∀ m ∈ inlineMarks b cell, m.2 ≠ .text
  | _ => True

theorem contentOf_eq_nil_iff {ms : List (Char × Markup)} : contentOf ms = [] ↔ ∀ m ∈ ms, m.2 ≠ .text := by
  unfold contentOf charsOf
  rw [List.map_eq_nil_iff, List.filter_eq_nil_iff]
  simp

theorem contentOf_cells {marks : List Char → List (Char × Markup)} (cells : List (List Char)) :
    contentOf (pipeMark ++ cells.flatMap fun cell => marks cell ++ pipeMark) =
      cells.flatMap fun cell => contentOf (marks cell) := by
  have hpipe : contentOf pipeMark = [] := contentOf_markup (by decide) _
  rw [contentOf_append, hpipe, List.nil_append, contentOf_flatMap]
  simp only [contentOf_append, hpipe, List.append_nil]

/-- Parts make up the whole when each of them does. -/
theorem flatMap_eq_iff {α β : Type} {f g : α → List β} {l : List α} (h : ∀ a ∈ l, (f a).Sublist (g a)) :
    l.flatMap f = l.flatMap g ↔ ∀ a ∈ l, f a = g a := by
  induction l with
  | nil => simp
  | cons a l ih =>
    have hhead := h a (List.mem_cons_self ..)
    have htail : ∀ x ∈ l, (f x).Sublist (g x) := fun x hx => h x (List.mem_cons_of_mem _ hx)
    have hrest := (List.Sublist.flatMap_right l htail).length_le
    rw [List.flatMap_cons, List.flatMap_cons, List.forall_mem_cons, ← ih htail]
    constructor
    · intro heq
      have hlength := congrArg List.length heq
      rw [List.length_append, List.length_append] at hlength
      have hfirst := hhead.length_le
      have hsame : f a = g a := hhead.eq_of_length (by omega)
      rw [hsame] at heq
      exact ⟨hsame, List.append_cancel_left heq⟩
    · intro hboth
      rw [hboth.1, hboth.2]

/-- The text of a line is what it shows and what it hides. -/
theorem contentOf_role (role : LineRole) : contentOf (role.marks b) = role.shown b ++ role.hidden b := by
  cases role with
  | fence info =>
    show contentOf (marked .backtick _ ++ (solid info).map _) = _
    have hpick : ((fun m : Char × Markup => decide (m.2 = .text)) ∘ fun c => (c, if c = '`' then .backtick else .text)) =
        fun c => decide (c ≠ '`') := by
      funext c
      by_cases hc : c = '`'
      · simp [hc]
      · simp [hc]
    rw [contentOf_append, contentOf_markup (by decide)]
    unfold contentOf charsOf
    rw [List.filter_map, List.map_map, hpick]
    exact List.map_id _
  | verbatim raw =>
    show contentOf (marked .text raw) = _
    rw [contentOf_text]
    exact (List.append_nil _).symm
  | heading level body =>
    show contentOf (marked .heading _ ++ inlineMarks b body) = _
    rw [contentOf_append, contentOf_markup (by decide)]
    exact (List.append_nil _).symm
  | separator line => exact contentOf_markup (by decide) line
  | header cells =>
    show contentOf (pipeMark ++ cells.flatMap fun cell => marked .text cell ++ pipeMark) = _
    rw [contentOf_cells]
    simp only [contentOf_text]
    exact (List.append_nil _).symm
  | row width cells =>
    show contentOf (pipeMark ++ cells.flatMap fun cell => inlineMarks b cell ++ pipeMark) = _
    rw [contentOf_cells, LineRole.shown, LineRole.hidden, ← List.flatMap_append, List.take_append_drop]
    rfl
  | item marker body =>
    show contentOf (marked .item _ ++ inlineMarks b body) = _
    rw [contentOf_append, contentOf_markup (by decide)]
    exact (List.append_nil _).symm
  | blank => rfl
  | text line => exact (List.append_nil _).symm

theorem hidden_eq_nil_iff (role : LineRole) : role.hidden b = [] ↔ role.Whole b := by
  cases role with
  | fence info =>
    dsimp only [LineRole.hidden, LineRole.Whole, solid]
    rw [List.filter_filter, List.filter_eq_nil_iff]
    refine forall₂_congr fun c _ => ?_
    cases isJsSpace c <;> simp
  | row width cells =>
    dsimp only [LineRole.hidden, LineRole.Whole]
    rw [List.flatMap_eq_nil_iff]
    exact forall₂_congr fun cell _ => contentOf_eq_nil_iff
  | verbatim raw => exact iff_of_true rfl trivial
  | heading level body => exact iff_of_true rfl trivial
  | separator line => exact iff_of_true rfl trivial
  | header cells => exact iff_of_true rfl trivial
  | item marker body => exact iff_of_true rfl trivial
  | blank => exact iff_of_true rfl trivial
  | text line => exact iff_of_true rfl trivial

theorem shown_sublist (role : LineRole) : (role.shown b).Sublist (contentOf (role.marks b)) := by
  rw [contentOf_role]
  exact List.sublist_append_left _ _

theorem shown_eq_iff (role : LineRole) : role.shown b = contentOf (role.marks b) ↔ role.Whole b := by
  rw [contentOf_role, ← hidden_eq_nil_iff, List.self_eq_append_right]

variable (b) in
/-- The page shows every character of the reply that is not blank and no markup, once and in order. -/
def KeepsText (text : List Char) : Prop :=
  solid (visible (markdown b text)) = contentOf (reading b text)

/-- The reading of a reply is complete, and the page keeps its text just where no line hides any. -/
theorem rendering_keeps_text_iff (b : Browser O) (text : List Char) :
    (charsOf (reading b text) = solid text ∧ Allowed (reading b text)) ∧
      (KeepsText b text ↔ ∀ role ∈ rolesOf text, role.Whole b) := by
  refine ⟨⟨charsOf_reading text, allowed_reading text⟩, ?_⟩
  unfold KeepsText reading
  rw [shown_markdown, contentOf_flatMap, flatMap_eq_iff fun role _ => shown_sublist role]
  exact forall₂_congr fun role _ => shown_eq_iff role

end

/-- A page whose links all lead nowhere. -/
def lonelyBrowser : Browser Unit := ⟨true, (), fun _ => none, fun _ _ => false⟩

/-- A block of code that names its language, and a table with a row that is too long. -/
def hidingReply : List Char :=
  ['`', '`', '`', 's', 'h', '\n', 'l', 's', '\n', '`', '`', '`', '\n', '|', 'a', '|', '\n', '|', 'b', '|', 'c', '|']

theorem language_is_not_shown : ¬KeepsText lonelyBrowser hidingReply := by
  unfold KeepsText
  decide

end NexaHR
