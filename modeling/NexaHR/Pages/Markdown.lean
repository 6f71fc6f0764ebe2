import NexaHR.Core.Texts
import NexaHR.Foundations.Addresses
import NexaHR.Foundations.Scanning

/-! # The rendering of an assistant's reply

* `parseBlocks`: the blocks of a reply, line by line, with what is still open kept in `ParseState`.
* `renderInline`: code, bold, italics and links inside a line.
* `safeHref`: the address a link gets, if it may be one.
* `markdown`: the page elements; `visible` and `hrefs` are what a reader sees and can follow.
-/

namespace NexaHR

open Foundations

set_option autoImplicit false

/-! ## Inside a line -/

/-- What the pattern of `renderInline` finds. -/
inductive InlineToken
  | code (inner : List Char)
  | strong (inner : List Char)
  | em (inner : List Char)
  | link (label target : List Char)

namespace InlineToken

def source : InlineToken → List Char
  | code inner => '`' :: (inner ++ ['`'])
  | strong inner => '*' :: '*' :: (inner ++ ['*', '*'])
  | em inner => '*' :: (inner ++ ['*'])
  | link label target => '[' :: (label ++ ']' :: '(' :: (target ++ [')']))

end InlineToken

/-- One letter or more of those `inside`, and then the closing mark. -/
def enclosed (inside : Char → Bool) (close chars : List Char) : Option (List Char × List Char) :=
  let inner := chars.takeWhile inside
  let rest := chars.dropWhile inside
  if inner ≠ [] ∧ close <+: rest then some (inner, rest.drop close.length) else none

theorem enclosed_eq_some {inside : Char → Bool} {close chars inner rest : List Char}
    (h : enclosed inside close chars = some (inner, rest)) :
    chars = inner ++ (close ++ rest) ∧ inner ≠ [] ∧ ∀ c ∈ inner, inside c = true := by
  unfold enclosed at h
  dsimp only at h
  split at h
  · next hboth =>
    cases h
    obtain ⟨hne, after, hafter⟩ := hboth
    refine ⟨?_, hne, fun c hc => List.mem_takeWhile_imp hc⟩
    rw [← hafter, List.drop_left, hafter, List.takeWhile_append_dropWhile]
  · cases h

def codeHere : List Char → Option (InlineToken × List Char)
  | '`' :: chars => (enclosed (fun c => c ≠ '`') ['`'] chars).map fun found => (.code found.1, found.2)
  | _ => none

def strongHere : List Char → Option (InlineToken × List Char)
  | '*' :: '*' :: chars => (enclosed (fun c => c ≠ '*') ['*', '*'] chars).map fun found => (.strong found.1, found.2)
  | _ => none

def emHere : List Char → Option (InlineToken × List Char)
  | '*' :: chars => (enclosed (fun c => c ≠ '*' && c ≠ '\n') ['*'] chars).map fun found => (.em found.1, found.2)
  | _ => none

def linkHere : List Char → Option (InlineToken × List Char)
  | '[' :: chars =>
    (enclosed (fun c => c ≠ ']') [']', '('] chars).bind fun label =>
      (enclosed (fun c => c ≠ ')' && !isJsSpace c) [')'] label.2).map fun target =>
        (.link label.1 target.1, target.2)
  | _ => none

/-- The four alternatives, in the order of the pattern. -/
def inlineHere (chars : List Char) : Option (InlineToken × List Char) :=
  (codeHere chars).or ((strongHere chars).or ((emHere chars).or (linkHere chars)))

/-- A token that the pattern can find. -/
def InlineToken.Possible : InlineToken → Prop
  | .link _ target => target ≠ [] ∧ ∀ c ∈ target, isJsSpace c = false
  | _ => True

theorem codeHere_eq_some {chars rest : List Char} {t : InlineToken} (h : codeHere chars = some (t, rest)) :
    chars = t.source ++ rest ∧ t.Possible := by
  unfold codeHere at h
  split at h
  · next after =>
    obtain ⟨found, hfound, heq⟩ := Option.map_eq_some_iff.mp h
    cases heq
    rw [(enclosed_eq_some hfound).1]
    simp [InlineToken.source, InlineToken.Possible]
  · cases h

theorem strongHere_eq_some {chars rest : List Char} {t : InlineToken} (h : strongHere chars = some (t, rest)) :
    chars = t.source ++ rest ∧ t.Possible := by
  unfold strongHere at h
  split at h
  · next after =>
    obtain ⟨found, hfound, heq⟩ := Option.map_eq_some_iff.mp h
    cases heq
    rw [(enclosed_eq_some hfound).1]
    simp [InlineToken.source, InlineToken.Possible]
  · cases h

theorem emHere_eq_some {chars rest : List Char} {t : InlineToken} (h : emHere chars = some (t, rest)) :
    chars = t.source ++ rest ∧ t.Possible := by
  unfold emHere at h
  split at h
  · next after =>
    obtain ⟨found, hfound, heq⟩ := Option.map_eq_some_iff.mp h
    cases heq
    rw [(enclosed_eq_some hfound).1]
    simp [InlineToken.source, InlineToken.Possible]
  · cases h

theorem linkHere_eq_some {chars rest : List Char} {t : InlineToken} (h : linkHere chars = some (t, rest)) :
    chars = t.source ++ rest ∧ t.Possible := by
  unfold linkHere at h
  split at h
  · next after =>
    obtain ⟨label, hlabel, hmap⟩ := Option.bind_eq_some_iff.mp h
    obtain ⟨target, htarget, heq⟩ := Option.map_eq_some_iff.mp hmap
    cases heq
    obtain ⟨hsource, hne, hinside⟩ := enclosed_eq_some htarget
    refine ⟨?_, hne, fun c hc => ?_⟩
    · rw [(enclosed_eq_some hlabel).1, hsource]
      simp [InlineToken.source]
    · have hin := hinside c hc
      simpa using (Bool.and_eq_true_iff.mp hin).2
  · cases h

theorem inlineHere_eq_some {chars rest : List Char} {t : InlineToken} (h : inlineHere chars = some (t, rest)) :
    chars = t.source ++ rest ∧ t.Possible := by
  unfold inlineHere at h
  obtain h | ⟨-, h⟩ := Option.or_eq_some_iff.mp h
  · exact codeHere_eq_some h
  obtain h | ⟨-, h⟩ := Option.or_eq_some_iff.mp h
  · exact strongHere_eq_some h
  obtain h | ⟨-, h⟩ := Option.or_eq_some_iff.mp h
  · exact emHere_eq_some h
  · exact linkHere_eq_some h

def inlinePattern : Pattern Char InlineToken where
  find? := inlineHere
  consumes := by
    intro chars t rest h
    exact ⟨t.source, by cases t <;> simp [InlineToken.source], (inlineHere_eq_some h).1⟩

/-! ## Links -/

section

variable {O : Type} (b : Browser O)

def allowedSchemes : List (List Char) :=
  [['h', 't', 't', 'p'], ['h', 't', 't', 'p', 's'], ['m', 'a', 'i', 'l', 't', 'o']]

/-- The address of an anchor, or `none`. -/
def safeHref (raw : List Char) : Option (List Char) :=
  let value := trim isJsSpace raw
  if value = [] then none
  else if ['/', '/'] <+: value then none
  else if ['/'] <+: value then some value
  else
    match b.resolve value with
    | some destination => if b.schemeOf destination ∈ allowedSchemes then some value else none
    | none => none

/-- A node of the page. -/
inductive InlineNode
  | text (chars : List Char)
  | code (chars : List Char)
  | strong (chars : List Char)
  | em (chars : List Char)
  | anchor (href label : List Char)

namespace InlineNode

def shown : InlineNode → List Char
  | text chars | code chars | strong chars | em chars => chars
  | anchor _ label => label

def href? : InlineNode → Option (List Char)
  | anchor href _ => some href
  | _ => none

end InlineNode

def textNode (chars : List Char) : List InlineNode := if chars = [] then [] else [.text chars]

def tokenNode (t : InlineToken) : InlineNode :=
  match t with
  | .code inner => .code inner
  | .strong inner => .strong inner
  | .em inner => .em inner
  | .link label target =>
    match safeHref b target with
    | some href => .anchor href label
    | none => .text t.source

/-- The nodes of the pieces of a line, where `before` is the plain text read last. -/
def nodesOf : List Char → List (Piece Char InlineToken) → List InlineNode
  | before, [] => textNode before
  | before, .plain c :: pieces => nodesOf (before ++ [c]) pieces
  | before, .found _ t :: pieces => textNode before ++ tokenNode b t :: nodesOf [] pieces

def renderInline (text : List Char) : List InlineNode := nodesOf b [] (inlinePattern.pieces text)

end

/-! ## Lines -/

def isLineEnd (c : Char) : Bool := c = '\n' || c = '\r' || c = '\u2028' || c = '\u2029'

/-- `\s+(.*)$`. -/
def afterBlanks : List Char → Option (List Char)
  | [] => none
  | c :: rest =>
    let text := rest.dropWhile isJsSpace
    if isJsSpace c && text.all fun d => !isLineEnd d then some text else none

/-- `/^(#{1,4})\s+(.*)$/`. -/
def headingOf (line : List Char) : Option (Nat × List Char) :=
  let level := (line.takeWhile (· = '#')).length
  if 1 ≤ level ∧ level ≤ 4 then (afterBlanks (line.dropWhile (· = '#'))).map fun text => (level, text) else none

/-- `/^:?-{2,}:?$/`. -/
def isRule (cell : List Char) : Bool :=
  let dashes := if [':'] <+: cell then cell.tail else cell
  2 ≤ (dashes.takeWhile (· = '-')).length && dashes.dropWhile (· = '-') ∈ [[], [':']]

def isTableLine (line : List Char) : Bool := ['|'] <+: line && ['|'] <:+ line

def cellsOf (line : List Char) : List (List Char) := (line.tail.dropLast.splitOn '|').map (trim isJsSpace)

/-- `/^\s*[-*•]\s+(.*)$/`. -/
def bulletOf (line : List Char) : Option (List Char) :=
  match line.dropWhile isJsSpace with
  | c :: rest => if c ∈ ['-', '*', '•'] then afterBlanks rest else none
  | [] => none

/-- `/^\s*\d+[.)]\s+(.*)$/`. -/
def numberedOf (line : List Char) : Option (List Char) :=
  let start := line.dropWhile isJsSpace
  if start.takeWhile Char.isDigit = [] then none
  else match start.dropWhile Char.isDigit with
    | c :: rest => if c ∈ ['.', ')'] then afterBlanks rest else none
    | [] => none

/-- What a line is outside of code. -/
inductive LineKind
  | fence
  | heading (level : Nat) (text : List Char)
  | separator
  | row (cells : List (List Char))
  | item (ordered : Bool) (text : List Char)
  | blank
  | text (line : List Char)

/-- The tests on a line, in the order in which they are made. -/
def lineKind (raw : List Char) : LineKind :=
  let line := raw.rdropWhile isJsSpace
  let trimmed := trim isJsSpace line
  if ['`', '`', '`'] <+: trimmed then .fence
  else match headingOf trimmed with
    | some heading => .heading heading.1 heading.2
    | none =>
      if isTableLine trimmed then
        let cells := cellsOf trimmed
        if cells.all fun cell => isRule cell || cell = [] then .separator else .row cells
      else match bulletOf line, numberedOf line with
        | _, some text => .item true (trim isJsSpace ((bulletOf line).getD text))
        | some text, none => .item false (trim isJsSpace text)
        | none, none => if trimmed = [] then .blank else .text trimmed

/-! ## Blocks -/

inductive MarkdownBlock
  | p (lines : List (List Char))
  | h (level : Nat) (text : List Char)
  | ul (items : List (List Char))
  | ol (items : List (List Char))
  | code (text : List Char)
  | table (header : List (List Char)) (rows : List (List (List Char)))

structure OpenList where
  ordered : Bool
  items : List (List Char)

structure OpenTable where
  header : List (List Char)
  rows : List (List (List Char))

/-- The blocks that are finished, and what is still open. -/
structure ParseState where
  blocks : List MarkdownBlock := []
  paragraph : List (List Char) := []
  list : Option OpenList := none
  code : Option (List (List Char)) := none
  table : Option OpenTable := none

namespace ParseState

def flushParagraph (s : ParseState) : ParseState :=
  if s.paragraph = [] then s else { s with blocks := s.blocks ++ [.p s.paragraph], paragraph := [] }

def flushList (s : ParseState) : ParseState :=
  match s.list with
  | some l => { s with blocks := s.blocks ++ [if l.ordered then .ol l.items else .ul l.items], list := none }
  | none => s

def flushTable (s : ParseState) : ParseState :=
  match s.table with
  | some t => { s with blocks := s.blocks ++ [.table t.header t.rows], table := none }
  | none => s

def flushAll (s : ParseState) : ParseState := s.flushParagraph.flushList.flushTable

/-- `code.join("\n")`. -/
def joinLines (lines : List (List Char)) : List Char := ['\n'].intercalate lines

def closeCode (s : ParseState) : ParseState :=
  match s.code with
  | some lines => { s with blocks := s.blocks ++ [.code (joinLines lines)], code := none }
  | none => s

def addRow (s : ParseState) (cells : List (List Char)) : ParseState :=
  match s.table with
  | none => { s with table := some ⟨cells, []⟩ }
  | some t => { s with table := some { t with rows := t.rows ++ [cells] } }

/-- An item goes to the open list if that is of its kind. -/
def addItem (s : ParseState) (ordered : Bool) (text : List Char) : ParseState :=
  match s.list with
  | some l =>
    if l.ordered = ordered then { s with list := some { l with items := l.items ++ [text] } }
    else { s.flushList with list := some ⟨ordered, [text]⟩ }
  | none => { s with list := some ⟨ordered, [text]⟩ }

/-- One turn of the loop over the lines. -/
def step (s : ParseState) (raw : List Char) : ParseState :=
  match s.code with
  | some lines =>
    match lineKind raw with
    | .fence => s.closeCode
    | _ => { s with code := some (lines ++ [raw]) }
  | none =>
    match lineKind raw with
    | .fence => { s.flushAll with code := some [] }
    | .heading level text =>
      let flushed := s.flushAll
      { flushed with blocks := flushed.blocks ++ [.h level text] }
    | .separator => s
    | .row cells => s.flushParagraph.flushList.addRow cells
    | .item ordered text => s.flushTable.flushParagraph.addItem ordered text
    | .blank => s.flushTable.flushList.flushParagraph
    | .text line =>
      let flushed := s.flushTable.flushList
      { flushed with paragraph := flushed.paragraph ++ [line] }

end ParseState

def parseBlocks (src : List Char) : List MarkdownBlock :=
  (((src.splitOn '\n').foldl ParseState.step {}).flushAll.closeCode).blocks

/-! ## The page -/

/-- An element of the page, with the nodes inside it. -/
inductive MarkdownElement
  | heading (level : Nat) (nodes : List InlineNode)
  | pre (text : List Char)
  | list (ordered : Bool) (items : List (List InlineNode))
  | table (header : List (List Char)) (rows : List (List (List InlineNode)))
  | paragraph (lines : List (List InlineNode))

section

variable {O : Type} (b : Browser O)

/-- The cells of a row under the header's columns. -/
def rowCells (header row : List (List Char)) : List (List Char) :=
  (List.range header.length).map fun c => row.getD c []

def markdownElement : MarkdownBlock → MarkdownElement
  | .h level text => .heading level (renderInline b text)
  | .code text => .pre text
  | .ul items => .list false (items.map (renderInline b))
  | .ol items => .list true (items.map (renderInline b))
  | .table header rows => .table header (rows.map fun row => (rowCells header row).map (renderInline b))
  | .p lines => .paragraph (lines.map (renderInline b))

def markdown (text : List Char) : List MarkdownElement := (parseBlocks text).map (markdownElement b)

namespace MarkdownElement

/-- The nodes of an element, in reading order. -/
def nodes : MarkdownElement → List InlineNode
  | heading _ nodes => nodes
  | pre text => [.code text]
  | list _ items => items.flatten
  | table header rows => header.map .text ++ (rows.map List.flatten).flatten
  | paragraph lines => lines.flatten

end MarkdownElement

/-- What a reader sees. -/
def visible (elements : List MarkdownElement) : List Char :=
  (elements.flatMap MarkdownElement.nodes).flatMap InlineNode.shown

/-- What a reader can follow. -/
def hrefs (elements : List MarkdownElement) : List (List Char) :=
  (elements.flatMap MarkdownElement.nodes).filterMap InlineNode.href?

end

end NexaHR
