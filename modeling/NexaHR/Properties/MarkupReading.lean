import Mathlib.Data.Bool.AllAny
import NexaHR.Foundations.Lines
import NexaHR.Pages.Markdown

/-! # The reading of a reply

The reading marks each character of a reply that is not blank as text or as a piece of markup. It goes through the
lines one by one, and of those before knows only whether it is inside code, and how wide the open table is.

* `LineRole`: what a line is where it stands. `LineRole.marks`: the marks of its characters.
* `reading`: the characters of a reply with their marks.
* `charsOf_reading`, `allowed_reading`: nothing is left out, and only marks of markdown are markup.
-/

namespace NexaHR

open Foundations

set_option autoImplicit false

/-! ## Characters that are not blank -/

def solid (l : List Char) : List Char := l.filter fun c => !isJsSpace c

@[simp] theorem solid_nil : solid [] = [] := rfl

@[simp] theorem solid_append (l m : List Char) : solid (l ++ m) = solid l ++ solid m := List.filter_append ..

theorem solid_cons (c : Char) (l : List Char) : solid (c :: l) = solid [c] ++ solid l := solid_append [c] l

@[simp] theorem solid_trim (l : List Char) : solid (trim isJsSpace l) = solid l := filter_trim l

@[simp] theorem solid_dropWhile (l : List Char) : solid (l.dropWhile isJsSpace) = solid l := filter_dropWhile l

theorem solid_trimmedLine (raw : List Char) : solid (trim isJsSpace (raw.rdropWhile isJsSpace)) = solid raw := by
  rw [solid_trim]
  exact filter_rdropWhile raw

theorem solid_flatMap {α : Type} (f : α → List Char) (l : List α) :
    solid (l.flatMap f) = l.flatMap fun a => solid (f a) := by
  unfold solid
  rw [List.filter_flatMap]

theorem solid_flatten (l : List (List Char)) : solid l.flatten = l.flatMap solid := by
  rw [← List.flatMap_id, solid_flatMap]
  rfl

/-! ## Marks -/

/-- What a character of a reply is. -/
inductive Markup
  | text
  | heading
  | item
  | pipe
  | separator
  | emphasis
  | backtick
  | link
  deriving DecidableEq

/-- The characters that may be markup. Of a link everything but its label is. -/
def Markup.Allows : Markup → Char → Prop
  | .text, _ => True
  | .heading, c => c = '#'
  | .item, c => c ∈ ['-', '*', '•', '.', ')'] ∨ c.isDigit = true
  | .pipe, c => c = '|'
  | .separator, c => c ∈ ['|', ':', '-']
  | .emphasis, c => c = '*'
  | .backtick, c => c = '`'
  | .link, _ => True

def marked (m : Markup) (l : List Char) : List (Char × Markup) := (solid l).map fun c => (c, m)

def charsOf (ms : List (Char × Markup)) : List Char := ms.map Prod.fst

/-- The characters that are marked as text. -/
def contentOf (ms : List (Char × Markup)) : List Char := charsOf (ms.filter fun m => m.2 = .text)

def Allowed (ms : List (Char × Markup)) : Prop := ∀ m ∈ ms, m.2.Allows m.1

@[simp] theorem charsOf_append (ms ns : List (Char × Markup)) : charsOf (ms ++ ns) = charsOf ms ++ charsOf ns :=
  List.map_append ..

@[simp] theorem charsOf_marked (m : Markup) (l : List Char) : charsOf (marked m l) = solid l := by
  unfold charsOf marked
  rw [List.map_map]
  exact List.map_id _

theorem charsOf_flatMap {α : Type} (f : α → List (Char × Markup)) (l : List α) :
    charsOf (l.flatMap f) = l.flatMap fun a => charsOf (f a) :=
  List.map_flatMap ..

@[simp] theorem contentOf_append (ms ns : List (Char × Markup)) :
    contentOf (ms ++ ns) = contentOf ms ++ contentOf ns := by
  unfold contentOf
  rw [List.filter_append, charsOf_append]

@[simp] theorem contentOf_text (l : List Char) : contentOf (marked .text l) = solid l := by
  unfold contentOf marked
  rw [List.filter_eq_self.mpr (by simp)]
  exact charsOf_marked .text l

theorem contentOf_markup {m : Markup} (hm : m ≠ .text) (l : List Char) : contentOf (marked m l) = [] := by
  unfold contentOf marked
  rw [List.filter_eq_nil_iff.mpr (by simp [hm])]
  rfl

theorem contentOf_flatMap {α : Type} (f : α → List (Char × Markup)) (l : List α) :
    contentOf (l.flatMap f) = l.flatMap fun a => contentOf (f a) := by
  unfold contentOf
  rw [List.filter_flatMap, charsOf_flatMap]

theorem allowed_append {ms ns : List (Char × Markup)} : Allowed (ms ++ ns) ↔ Allowed ms ∧ Allowed ns :=
  List.forall_mem_append

theorem allowed_flatMap {α : Type} {f : α → List (Char × Markup)} {l : List α} (h : ∀ a ∈ l, Allowed (f a)) :
    Allowed (l.flatMap f) := by
  intro m hm
  obtain ⟨a, ha, hmem⟩ := List.mem_flatMap.mp hm
  exact h a ha m hmem

theorem allowed_marked {m : Markup} {l : List Char} (h : ∀ c ∈ l, m.Allows c) : Allowed (marked m l) := by
  intro pair hpair
  obtain ⟨c, hc, rfl⟩ := List.mem_map.mp hpair
  exact h c (List.mem_of_mem_filter hc)

theorem allowed_text (l : List Char) : Allowed (marked .text l) := allowed_marked fun _ _ => trivial

/-! ## Inside a line -/

section

variable {O : Type} (b : Browser O)

/-- The marks of a token. A link that gets no anchor is text. -/
def tokenMarks (t : InlineToken) : List (Char × Markup) :=
  match t with
  | .code inner => marked .backtick ['`'] ++ marked .text inner ++ marked .backtick ['`']
  | .strong inner => marked .emphasis ['*', '*'] ++ marked .text inner ++ marked .emphasis ['*', '*']
  | .em inner => marked .emphasis ['*'] ++ marked .text inner ++ marked .emphasis ['*']
  | .link label target =>
    if (safeHref b target).isSome then
      marked .link ['['] ++ marked .text label ++ marked .link (']' :: '(' :: (target ++ [')']))
    else marked .text t.source

def pieceMarks : Piece Char InlineToken → List (Char × Markup)
  | .plain c => marked .text [c]
  | .found _ t => tokenMarks b t

def inlineMarks (text : List Char) : List (Char × Markup) := (inlinePattern.pieces text).flatMap (pieceMarks b)

/-- The text in a line. -/
def inlineContent (text : List Char) : List Char := contentOf (inlineMarks b text)

variable {b}

theorem charsOf_tokenMarks (t : InlineToken) : charsOf (tokenMarks b t) = solid t.source := by
  cases t with
  | code inner => simp [tokenMarks, InlineToken.source, ← solid_append]
  | strong inner => simp [tokenMarks, InlineToken.source, ← solid_append]
  | em inner => simp [tokenMarks, InlineToken.source, ← solid_append]
  | link label target =>
    unfold tokenMarks
    dsimp only
    split
    · simp [InlineToken.source, ← solid_append]
    · rw [charsOf_marked]

theorem charsOf_inlineMarks (text : List Char) : charsOf (inlineMarks b text) = solid text := by
  have hpieces : ∀ piece ∈ inlinePattern.pieces text, charsOf (pieceMarks b piece) = solid piece.whole := by
    intro piece hpiece
    cases piece with
    | plain c => exact charsOf_marked .text [c]
    | found whole t =>
      obtain ⟨rest, hrest⟩ := Pattern.mem_pieces_found hpiece
      have hwhole := List.append_cancel_right (inlineHere_eq_some hrest).1
      rw [Piece.whole, hwhole]
      exact charsOf_tokenMarks t
  unfold inlineMarks
  rw [charsOf_flatMap]
  conv_rhs => rw [← inlinePattern.pieces_whole text, solid_flatMap]
  exact List.flatMap_congr hpieces

theorem allowed_tokenMarks (t : InlineToken) : Allowed (tokenMarks b t) := by
  have hback : Allowed (marked .backtick ['`']) := allowed_marked (by simp [Markup.Allows])
  have hone : Allowed (marked .emphasis ['*']) := allowed_marked (by simp [Markup.Allows])
  have htwo : Allowed (marked .emphasis ['*', '*']) := allowed_marked (by simp [Markup.Allows])
  cases t with
  | code inner => exact allowed_append.mpr ⟨allowed_append.mpr ⟨hback, allowed_text inner⟩, hback⟩
  | strong inner => exact allowed_append.mpr ⟨allowed_append.mpr ⟨htwo, allowed_text inner⟩, htwo⟩
  | em inner => exact allowed_append.mpr ⟨allowed_append.mpr ⟨hone, allowed_text inner⟩, hone⟩
  | link label target =>
    have hlink : ∀ l, Allowed (marked .link l) := fun l => allowed_marked fun _ _ => trivial
    unfold tokenMarks
    dsimp only
    split
    · exact allowed_append.mpr ⟨allowed_append.mpr ⟨hlink _, allowed_text label⟩, hlink _⟩
    · exact allowed_text _

theorem allowed_inlineMarks (text : List Char) : Allowed (inlineMarks b text) := by
  apply allowed_flatMap
  intro piece _
  cases piece with
  | plain c => exact allowed_text [c]
  | found whole t => exact allowed_tokenMarks t

theorem solid_tokenNode (t : InlineToken) : solid (tokenNode b t).shown = contentOf (tokenMarks b t) := by
  cases t with
  | code inner => simp [tokenNode, InlineNode.shown, tokenMarks, contentOf_markup]
  | strong inner => simp [tokenNode, InlineNode.shown, tokenMarks, contentOf_markup]
  | em inner => simp [tokenNode, InlineNode.shown, tokenMarks, contentOf_markup]
  | link label target =>
    unfold tokenNode tokenMarks
    dsimp only
    cases safeHref b target with
    | none => simp [InlineNode.shown]
    | some href => simp [InlineNode.shown, contentOf_markup]

theorem solid_textNode (chars : List Char) : solid ((textNode chars).flatMap InlineNode.shown) = solid chars := by
  unfold textNode
  split
  · next hnil => rw [hnil]; rfl
  · simp [InlineNode.shown]

theorem solid_nodesOf (before : List Char) (pieces : List (Piece Char InlineToken)) :
    solid ((nodesOf b before pieces).flatMap InlineNode.shown) =
      solid before ++ contentOf (pieces.flatMap (pieceMarks b)) := by
  induction pieces generalizing before with
  | nil =>
    rw [nodesOf, solid_textNode, List.flatMap_nil]
    exact (List.append_nil _).symm
  | cons piece pieces ih =>
    cases piece with
    | plain c =>
      rw [nodesOf, ih, List.flatMap_cons, contentOf_append, pieceMarks, contentOf_text, solid_append,
        List.append_assoc]
    | found whole t =>
      rw [nodesOf, List.flatMap_append, solid_append, solid_textNode, List.flatMap_cons, solid_append, ih,
        solid_tokenNode, List.flatMap_cons, contentOf_append, pieceMarks, solid_nil, List.nil_append]

/-- A line shows its text. -/
theorem solid_renderInline (text : List Char) :
    solid ((renderInline b text).flatMap InlineNode.shown) = inlineContent b text :=
  solid_nodesOf [] _

@[simp] theorem inlineContent_nil : inlineContent b [] = [] := rfl

end

/-! ## Lines -/

/-- What a line is where it stands. -/
inductive LineRole
  /-- The line begins with three backticks, and `info` follows. -/
  | fence (info : List Char)
  | verbatim (raw : List Char)
  | heading (level : Nat) (text : List Char)
  | separator (line : List Char)
  | header (cells : List (List Char))
  /-- A row under a header with `width` cells. -/
  | row (width : Nat) (cells : List (List Char))
  | item (marker text : List Char)
  | blank
  | text (line : List Char)

def trimmedLine (raw : List Char) : List Char := trim isJsSpace (raw.rdropWhile isJsSpace)

/-- What stands before the first blank. -/
def markerOf (raw : List Char) : List Char :=
  ((raw.rdropWhile isJsSpace).dropWhile isJsSpace).takeWhile fun c => !isJsSpace c

/-- The role of a line after others, by whether they have left code open and a table with a header. -/
def lineRole (code : Bool) (width : Option Nat) (raw : List Char) : LineRole :=
  match lineKind raw with
  | .fence => .fence ((trimmedLine raw).drop 3)
  | kind =>
    if code then .verbatim raw
    else match kind with
      | .heading level text => .heading level text
      | .separator => .separator (trimmedLine raw)
      | .row cells =>
        match width with
        | some n => .row n cells
        | none => .header cells
      | .item _ text => .item (markerOf raw) text
      | .text line => .text line
      | _ => .blank

/-- What a line leaves open. -/
def leavesOpen (code : Bool) (width : Option Nat) (raw : List Char) : Bool × Option Nat :=
  match lineKind raw with
  | .fence => (!code, none)
  | kind =>
    if code then (true, none)
    else match kind with
      | .separator => (false, width)
      | .row cells => (false, some (width.getD cells.length))
      | _ => (false, none)

def lineRoles : Bool → Option Nat → List (List Char) → List LineRole
  | _, _, [] => []
  | code, width, raw :: lines =>
    lineRole code width raw :: lineRoles (leavesOpen code width raw).1 (leavesOpen code width raw).2 lines

/-- The roles of the lines of a reply. -/
def rolesOf (text : List Char) : List LineRole := lineRoles false none (text.splitOn '\n')

section

variable {O : Type} (b : Browser O)

def pipeMark : List (Char × Markup) := marked .pipe ['|']

def LineRole.marks : LineRole → List (Char × Markup)
  | fence info =>
    marked .backtick ['`', '`', '`'] ++
      (solid info).map fun c => (c, if c = '`' then .backtick else .text)
  | verbatim raw => marked .text raw
  | heading level body => marked .heading (List.replicate level '#') ++ inlineMarks b body
  | separator line => marked .separator line
  | header cells => pipeMark ++ cells.flatMap fun cell => marked .text cell ++ pipeMark
  | row _ cells => pipeMark ++ cells.flatMap fun cell => inlineMarks b cell ++ pipeMark
  | item marker body => marked .item marker ++ inlineMarks b body
  | blank => []
  | text line => inlineMarks b line

/-- The characters of a reply that are not blank, with their marks. -/
def reading (text : List Char) : List (Char × Markup) := (rolesOf text).flatMap (LineRole.marks b)

end

/-! ## Nothing is left out -/

theorem afterBlanks_eq_some {l text : List Char} (h : afterBlanks l = some text) :
    ∃ c rest, l = c :: rest ∧ isJsSpace c = true ∧ text = rest.dropWhile isJsSpace := by
  unfold afterBlanks at h
  split at h
  · cases h
  · next c rest =>
    dsimp only at h
    split at h
    · next hboth =>
      cases h
      exact ⟨c, rest, rfl, (Bool.and_eq_true_iff.mp hboth).1, rfl⟩
    · cases h

theorem solid_afterBlanks {l text : List Char} (h : afterBlanks l = some text) : solid text = solid l := by
  obtain ⟨c, rest, rfl, hc, rfl⟩ := afterBlanks_eq_some h
  rw [solid_dropWhile, solid_cons]
  simp [solid, hc]

theorem takeWhile_eq_replicate (l : List Char) :
    l.takeWhile (· = '#') = List.replicate (l.takeWhile (· = '#')).length '#' := by
  rw [List.eq_replicate_iff]
  exact ⟨rfl, fun c hc => by simpa using List.mem_takeWhile_imp hc⟩

theorem solid_heading {line text : List Char} {level : Nat} (h : headingOf line = some (level, text)) :
    solid line = solid (List.replicate level '#') ++ solid text := by
  unfold headingOf at h
  dsimp only at h
  split at h
  · obtain ⟨found, hfound, heq⟩ := Option.map_eq_some_iff.mp h
    cases heq
    rw [← takeWhile_eq_replicate, solid_afterBlanks hfound, ← solid_append, List.takeWhile_append_dropWhile]
  · cases h

/-- The marker of an item is what stands before the first blank. -/
theorem marker_of_item {raw marker rest text : List Char} (hraw : (raw.rdropWhile isJsSpace).dropWhile isJsSpace = marker ++ rest)
    (hmarker : ∀ c ∈ marker, isJsSpace c = false) (htext : afterBlanks rest = some text) :
    markerOf raw = marker ∧ solid raw = solid marker ++ solid text := by
  constructor
  · obtain ⟨c, after, rfl, hc, _⟩ := afterBlanks_eq_some htext
    unfold markerOf
    rw [hraw, List.takeWhile_append_of_pos (by simpa using hmarker), List.takeWhile_cons_of_neg (by simp [hc]),
      List.append_nil]
  · rw [solid_afterBlanks htext, ← solid_append, ← hraw, solid_dropWhile]
    exact (filter_rdropWhile raw).symm

theorem digit_solid {c : Char} (h : c.isDigit = true) : isJsSpace c = false := by
  have hall : ∀ k < 10, isJsSpace (Char.ofNat (48 + k)) = false := by decide
  have hrange : 48 ≤ c.toNat ∧ c.toNat ≤ 57 := Char.isDigit_iff_toNat.mp h
  have hdigit := hall (c.toNat - 48) (by omega)
  rwa [Nat.add_sub_cancel' hrange.1, Char.ofNat_toNat] at hdigit

/-- What the tests on a line have found when they take it for one of a kind. -/
def LineKind.Fits (raw : List Char) : LineKind → Prop
  | fence => ['`', '`', '`'] <+: trimmedLine raw
  | heading level body => headingOf (trimmedLine raw) = some (level, body)
  | separator => isTableLine (trimmedLine raw) = true ∧
      (cellsOf (trimmedLine raw)).all (fun cell => isRule cell || cell = []) = true
  | row cells => isTableLine (trimmedLine raw) = true ∧ cells = cellsOf (trimmedLine raw) ∧
      cells.all (fun cell => isRule cell || cell = []) = false
  | item _ body => ∃ found, body = trim isJsSpace found ∧
      (bulletOf (raw.rdropWhile isJsSpace) = some found ∨ numberedOf (raw.rdropWhile isJsSpace) = some found)
  | blank => trimmedLine raw = []
  | text line => line = trimmedLine raw

theorem lineKind_fits (raw : List Char) : (lineKind raw).Fits raw := by
  unfold lineKind
  dsimp only
  split
  · assumption
  split
  · next heading hheading => exact hheading
  split
  · next htable =>
    split
    · next hall => exact ⟨htable, hall⟩
    · next hall => exact ⟨htable, rfl, by simpa using hall⟩
  split
  · next found hnumbered =>
    cases hbullet : bulletOf (raw.rdropWhile isJsSpace) with
    | none => exact ⟨found, rfl, Or.inr hnumbered⟩
    | some other => exact ⟨other, rfl, Or.inl hbullet⟩
  · next found hbullet hnone => exact ⟨found, rfl, Or.inl hbullet⟩
  split
  · assumption
  · rfl

/-- An item is its marker, a blank and its text. -/
theorem solid_item {raw body : List Char} {ordered : Bool} (h : (LineKind.item ordered body).Fits raw) :
    solid raw = solid (markerOf raw) ++ solid body ∧ ∀ c ∈ markerOf raw, Markup.item.Allows c := by
  obtain ⟨found, rfl, hbullet | hnumbered⟩ := h
  · unfold bulletOf at hbullet
    split at hbullet
    · next c rest hline =>
      split at hbullet
      · next hmark =>
        have hall : ∀ d ∈ ['-', '*', '•'], isJsSpace d = false ∧ Markup.item.Allows d := by
          unfold Markup.Allows
          exact List.all_iff_forall_prop.mp (by decide)
        have hone : ∀ d ∈ [c], d = c := fun d hd => List.mem_singleton.mp hd
        obtain ⟨hmarker, hraw⟩ := @marker_of_item raw [c] rest found hline
          (fun d hd => hone d hd ▸ (hall c hmark).1) hbullet
        rw [hmarker, hraw, solid_trim]
        exact ⟨rfl, fun d hd => hone d hd ▸ (hall c hmark).2⟩
      · cases hbullet
    · cases hbullet
  · unfold numberedOf at hnumbered
    dsimp only at hnumbered
    split at hnumbered
    · cases hnumbered
    split at hnumbered
    · next c rest hline =>
      split at hnumbered
      · next hmark =>
        have hall : ∀ d ∈ ['.', ')'], isJsSpace d = false ∧ Markup.item.Allows d := by
          unfold Markup.Allows
          exact List.all_iff_forall_prop.mp (by decide)
        have hdigit : ∀ d ∈ (((raw.rdropWhile isJsSpace).dropWhile isJsSpace).takeWhile Char.isDigit),
            d.isDigit = true := fun d hd => List.mem_takeWhile_imp hd
        have hsplit := List.takeWhile_append_dropWhile (p := Char.isDigit)
          (l := (raw.rdropWhile isJsSpace).dropWhile isJsSpace)
        rw [hline, List.append_cons] at hsplit
        have hchars : ∀ d ∈ ((raw.rdropWhile isJsSpace).dropWhile isJsSpace).takeWhile Char.isDigit ++ [c],
            isJsSpace d = false ∧ Markup.item.Allows d := by
          intro d hd
          cases List.mem_append.mp hd with
          | inl hleft => exact ⟨digit_solid (hdigit d hleft), Or.inr (hdigit d hleft)⟩
          | inr hright => exact List.mem_singleton.mp hright ▸ hall c hmark
        obtain ⟨hmarker, hraw⟩ := marker_of_item hsplit.symm (fun d hd => (hchars d hd).1) hnumbered
        rw [hmarker, hraw, solid_trim]
        exact ⟨rfl, fun d hd => (hchars d hd).2⟩
      · cases hnumbered
    · cases hnumbered

/-- A table line is its cells, each with a pipe behind it, after the first pipe. -/
theorem solid_cells {line : List Char} (htable : isTableLine line = true) (hlong : line ≠ ['|']) :
    solid line = solid ['|'] ++ (cellsOf line).flatMap fun cell => solid cell ++ solid ['|'] := by
  unfold isTableLine at htable
  rw [Bool.and_eq_true, decide_eq_true_iff, decide_eq_true_iff] at htable
  obtain ⟨⟨tail, rfl⟩, ⟨front, hfront⟩⟩ := htable
  rw [List.singleton_append] at hfront hlong ⊢
  cases front with
  | nil => exact absurd hfront.symm hlong
  | cons c mid =>
    rw [List.cons_append, List.cons.injEq] at hfront
    obtain ⟨rfl, rfl⟩ := hfront
    unfold cellsOf
    rw [List.tail_cons, List.dropLast_concat, List.flatMap_map, solid_cons]
    simp only [solid_trim]
    have hparts := intercalate_concat '|' (List.splitOn_ne_nil '|' mid)
    rw [List.intercalate_splitOn] at hparts
    rw [hparts, solid_flatMap]
    simp only [solid_append]

section

variable {O : Type} {b : Browser O}

theorem charsOf_pipeMark : charsOf pipeMark = solid ['|'] := charsOf_marked .pipe ['|']

/-- A row of the table is longer than a single pipe, whose one cell is empty. -/
theorem row_ne_pipe {line : List Char} {cells : List (List Char)} (hcells : cells = cellsOf line)
    (hall : cells.all (fun cell => isRule cell || cell = []) = false) : line ≠ ['|'] := by
  intro hpipe
  rw [hcells, hpipe] at hall
  revert hall
  decide

theorem charsOf_row {line : List Char} {cells : List (List Char)} {marks : List Char → List (Char × Markup)}
    (hmarks : ∀ cell, charsOf (marks cell) = solid cell) (hcells : cells = cellsOf line)
    (htable : isTableLine line = true) (hall : cells.all (fun cell => isRule cell || cell = []) = false) :
    charsOf (pipeMark ++ cells.flatMap fun cell => marks cell ++ pipeMark) = solid line := by
  rw [solid_cells htable (row_ne_pipe hcells hall), charsOf_append, charsOf_pipeMark, charsOf_flatMap, hcells]
  simp only [charsOf_append, charsOf_pipeMark, hmarks]

/-- The marks of a line have all its characters that are not blank. -/
theorem charsOf_lineRole (code : Bool) (width : Option Nat) (raw : List Char) :
    charsOf ((lineRole code width raw).marks b) = solid raw := by
  have hline : solid (trimmedLine raw) = solid raw := solid_trimmedLine raw
  have hfits := lineKind_fits raw
  have hverbatim : charsOf ((LineRole.verbatim raw).marks b) = solid raw := charsOf_marked .text raw
  unfold lineRole
  cases hkind : lineKind raw with
  | fence =>
    rw [hkind] at hfits
    obtain ⟨info, hinfo⟩ := hfits
    have hdrop : (trimmedLine raw).drop 3 = info := by
      rw [← hinfo]
      rfl
    show charsOf (marked .backtick ['`', '`', '`'] ++ (solid ((trimmedLine raw).drop 3)).map _) = _
    rw [charsOf_append, charsOf_marked, hdrop, ← hline, ← hinfo, solid_append]
    unfold charsOf
    rw [List.map_map]
    exact congrArg (_ ++ ·) (List.map_id _)
  | heading level body =>
    rw [hkind] at hfits
    cases code with
    | true => exact hverbatim
    | false =>
      show charsOf (marked .heading _ ++ inlineMarks b body) = _
      rw [charsOf_append, charsOf_marked, charsOf_inlineMarks, ← solid_heading hfits, hline]
  | separator =>
    cases code with
    | true => exact hverbatim
    | false =>
      show charsOf (marked .separator _) = _
      rw [charsOf_marked, hline]
  | row cells =>
    rw [hkind] at hfits
    obtain ⟨htable, hcells, hall⟩ := hfits
    cases code with
    | true => exact hverbatim
    | false =>
      cases width with
      | none => exact (charsOf_row (fun cell => charsOf_marked .text cell) hcells htable hall).trans hline
      | some n => exact (charsOf_row (fun cell => charsOf_inlineMarks cell) hcells htable hall).trans hline
  | item ordered body =>
    rw [hkind] at hfits
    cases code with
    | true => exact hverbatim
    | false =>
      show charsOf (marked .item _ ++ inlineMarks b body) = _
      rw [charsOf_append, charsOf_marked, charsOf_inlineMarks, ← (solid_item hfits).1]
  | blank =>
    rw [hkind] at hfits
    cases code with
    | true => exact hverbatim
    | false =>
      have hnil : trimmedLine raw = [] := hfits
      rw [← hline, hnil]
      rfl
  | text line =>
    rw [hkind] at hfits
    cases code with
    | true => exact hverbatim
    | false =>
      have htext : line = trimmedLine raw := hfits
      show charsOf (inlineMarks b line) = _
      rw [charsOf_inlineMarks, htext, hline]

/-! ## Only marks of markdown are markup -/

theorem allowed_pipeMark : Allowed pipeMark := allowed_marked (by simp [Markup.Allows])

theorem chars_of_rule {cell : List Char} (h : isRule cell = true) : ∀ c ∈ cell, c ∈ ['|', ':', '-'] := by
  unfold isRule at h
  dsimp only at h
  rw [Bool.and_eq_true, decide_eq_true_iff, decide_eq_true_iff] at h
  have hdashes : ∀ dashes : List Char, dashes.dropWhile (· = '-') ∈ [[], [':']] → ∀ c ∈ dashes, c ∈ ['|', ':', '-'] := by
    intro dashes hrest c hc
    rw [← @List.takeWhile_append_dropWhile _ (· = '-') dashes] at hc
    cases List.mem_append.mp hc with
    | inl hleft =>
      have hdash : c = '-' := by simpa using List.mem_takeWhile_imp hleft
      rw [hdash]
      decide
    | inr hright =>
      have hall : ∀ rest ∈ [[], [':']], ∀ d ∈ rest, d ∈ ['|', ':', '-'] := by
        simp
      exact hall _ hrest c hright
  intro c hc
  split at h
  · next hcolon =>
    obtain ⟨tail, rfl⟩ := hcolon
    cases List.mem_cons.mp hc with
    | inl hfirst =>
      rw [hfirst]
      decide
    | inr htail => exact hdashes tail h.2 c htail
  · exact hdashes cell h.2 c hc

/-- The line below the header of a table has nothing but pipes and rules. -/
theorem allowed_separator {line : List Char} (htable : isTableLine line = true)
    (hall : (cellsOf line).all (fun cell => isRule cell || cell = []) = true) :
    Allowed (marked .separator line) := by
  have hchars : ∀ c ∈ solid line, c ∈ ['|', ':', '-'] := by
    intro c hc
    by_cases hlong : line = ['|']
    · rw [hlong] at hc
      revert c
      exact List.all_iff_forall_prop.mp (by decide)
    rw [solid_cells htable hlong, List.mem_append, List.mem_flatMap] at hc
    have hpipe : ∀ d ∈ solid ['|'], d ∈ ['|', ':', '-'] := List.all_iff_forall_prop.mp (by decide)
    obtain hc | ⟨cell, hcell, hc⟩ := hc
    · exact hpipe c hc
    cases List.mem_append.mp hc with
    | inr hright => exact hpipe c hright
    | inl hleft =>
      have hcellRule := List.all_eq_true.mp hall cell hcell
      rw [Bool.or_eq_true, decide_eq_true_iff] at hcellRule
      cases hcellRule with
      | inl hrule => exact chars_of_rule hrule c (List.mem_of_mem_filter hleft)
      | inr hnil =>
        rw [hnil] at hleft
        cases hleft
  intro m hm
  obtain ⟨c, hc, rfl⟩ := List.mem_map.mp hm
  exact hchars c hc

theorem allowed_cells {cells : List (List Char)} {marks : List Char → List (Char × Markup)}
    (hmarks : ∀ cell, Allowed (marks cell)) : Allowed (pipeMark ++ cells.flatMap fun cell => marks cell ++ pipeMark) :=
  allowed_append.mpr ⟨allowed_pipeMark,
    allowed_flatMap fun cell _ => allowed_append.mpr ⟨hmarks cell, allowed_pipeMark⟩⟩

theorem allowed_lineRole (code : Bool) (width : Option Nat) (raw : List Char) :
    Allowed ((lineRole code width raw).marks b) := by
  have hfits := lineKind_fits raw
  have hverbatim : Allowed ((LineRole.verbatim raw).marks b) := allowed_text raw
  unfold lineRole
  cases hkind : lineKind raw with
  | fence =>
    refine allowed_append.mpr ⟨allowed_marked (by simp [Markup.Allows]), fun m hm => ?_⟩
    obtain ⟨c, _, rfl⟩ := List.mem_map.mp hm
    dsimp only
    split
    · next htick => exact htick
    · trivial
  | heading level body =>
    cases code with
    | true => exact hverbatim
    | false =>
      refine allowed_append.mpr ⟨allowed_marked fun c hc => ?_, allowed_inlineMarks body⟩
      exact List.eq_of_mem_replicate hc
  | separator =>
    rw [hkind] at hfits
    cases code with
    | true => exact hverbatim
    | false => exact allowed_separator hfits.1 hfits.2
  | row cells =>
    cases code with
    | true => exact hverbatim
    | false =>
      cases width with
      | none => exact allowed_cells fun cell => allowed_text cell
      | some n => exact allowed_cells fun cell => allowed_inlineMarks cell
  | item ordered body =>
    rw [hkind] at hfits
    cases code with
    | true => exact hverbatim
    | false => exact allowed_append.mpr ⟨allowed_marked (solid_item hfits).2, allowed_inlineMarks body⟩
  | blank =>
    cases code with
    | true => exact hverbatim
    | false => exact fun m hm => nomatch hm
  | text line =>
    cases code with
    | true => exact hverbatim
    | false => exact allowed_inlineMarks line

/-! ## The reading of a whole reply -/

theorem charsOf_lineRoles (code : Bool) (width : Option Nat) (lines : List (List Char)) :
    charsOf ((lineRoles code width lines).flatMap (LineRole.marks b)) = lines.flatMap solid := by
  induction lines generalizing code width with
  | nil => rfl
  | cons raw lines ih => rw [lineRoles, List.flatMap_cons, charsOf_append, charsOf_lineRole, ih, List.flatMap_cons]

theorem allowed_lineRoles (code : Bool) (width : Option Nat) (lines : List (List Char)) :
    Allowed ((lineRoles code width lines).flatMap (LineRole.marks b)) := by
  induction lines generalizing code width with
  | nil => exact fun m hm => nomatch hm
  | cons raw lines ih =>
    rw [lineRoles, List.flatMap_cons]
    exact allowed_append.mpr ⟨allowed_lineRole code width raw, ih _ _⟩

theorem solid_joinLines (lines : List (List Char)) : solid (ParseState.joinLines lines) = lines.flatMap solid := by
  unfold ParseState.joinLines
  induction lines with
  | nil => rfl
  | cons line lines ih =>
    cases lines with
    | nil => simp
    | cons next lines =>
      have hnewline : solid ['\n'] = [] := by decide
      rw [List.intercalate_cons_cons, solid_append, solid_append, hnewline, List.append_nil, ih,
        @List.flatMap_cons _ _ line]

theorem charsOf_reading (text : List Char) : charsOf (reading b text) = solid text := by
  unfold reading rolesOf
  rw [charsOf_lineRoles, ← solid_joinLines]
  exact congrArg solid (List.intercalate_splitOn '\n')

theorem allowed_reading (text : List Char) : Allowed (reading b text) := allowed_lineRoles _ _ _

end

end NexaHR
