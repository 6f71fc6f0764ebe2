import NexaHR.Tools.Fallback

/-! # Blocks that are calls, and blocks that are not

The calls of a reply are read from its fenced blocks, else from a reply that is JSON as a whole. What is shown of the
reply loses every block.

* `NamesTool`: the body holds a call.
* `stripCallBlocks`: the reply without what is read as a call, and only without that.
* `strips_calls_iff`: when this is what is shown.
-/

namespace NexaHR

open Foundations

set_option autoImplicit false

/-- The body is JSON with a dictionary that names a tool. -/
def NamesTool (py : PythonJson) (body : String) : Prop :=
  ∃ parsed, py.loads body = .value parsed ∧ ∃ fields, .dict fields ∈ itemsOf parsed ∧ toolName py fields ≠ ""

/-- What a body was turned into; nothing where its text is invalid or too deep. -/
def blockCalls (py : PythonJson) (body : String) : List (String × List (PyKey × PyJson)) :=
  (callsOf py body).toOption.getD []

def shownPiece (py : PythonJson) : Piece Char (List Char) → List Char
  | .plain c => [c]
  | .found whole body => if blockCalls py (String.ofList body) = [] then whole else []

/-- The reply without the blocks that are calls; nothing of a reply that is a call as a whole. -/
def stripCallBlocks (py : PythonJson) (reply : String) : String :=
  if fencedBodies reply = [] then
    if (parseFallbackBlocks py reply).toOption.getD [] = [] then strip reply else ""
  else strip (String.ofList ((fencePieces reply).flatMap (shownPiece py)))

/-- Every block is a call, and a reply without blocks is not. -/
structure OnlyCallBlocks (py : PythonJson) (reply : String) : Prop where
  fenced : ∀ body ∈ fencedBodies reply, NamesTool py body
  bare : fencedBodies reply = [] → startsWithAny ["\x7b", "["] (strip reply) = true → ¬NamesTool py (strip reply)

section

variable {py : PythonJson} {reply body : String} {pieces : List (Piece Char (List Char))}

theorem callOf_isSome {v : PyJson} :
    (callOf py v).isSome = true ↔ ∃ fields, v = .dict fields ∧ toolName py fields ≠ "" := by
  cases v with
  | dict fields =>
    by_cases hname : toolName py fields = ""
    · simp [callOf, hname]
    · simp [callOf, hname]
  | none | bool _ | number _ | str _ | list _ => simp [callOf]

theorem blockCalls_eq_nil : blockCalls py body = [] ↔ ¬NamesTool py body := by
  unfold blockCalls callsOf NamesTool
  cases py.loads body with
  | invalid => simp [Except.toOption]
  | tooDeep => simp [Except.toOption]
  | value parsed =>
    show (itemsOf parsed).filterMap (callOf py) = [] ↔ _
    rw [List.filterMap_eq_nil_iff]
    constructor
    · rintro hnone ⟨_, heq, fields, hmem, hname⟩
      cases heq
      have hcall := callOf_isSome.mpr ⟨fields, rfl, hname⟩
      rw [hnone _ hmem] at hcall
      cases hcall
    · intro hnot v hv
      by_contra hcall
      obtain ⟨fields, rfl, hname⟩ := callOf_isSome.mp (Option.isSome_iff_ne_none.mpr hcall)
      exact hnot ⟨parsed, rfl, fields, hv, hname⟩

/-! ## A reply without blocks -/

theorem plain_of_no_found (h : pieces.filterMap Piece.found? = []) :
    pieces.filterMap Piece.plain? = pieces.flatMap Piece.whole := by
  induction pieces with
  | nil => rfl
  | cons piece pieces ih =>
    cases piece with
    | plain c =>
      rw [Piece.filterMap_plain?_plain, List.flatMap_cons, ih h]
      rfl
    | found whole body => cases h

theorem stripFallbackBlocks_bare (h : fencedBodies reply = []) : stripFallbackBlocks reply = strip reply := by
  have hwhole : withoutFences reply = reply := by
    unfold withoutFences
    rw [plain_of_no_found (List.map_eq_nil_iff.mp h)]
    unfold fencePieces
    rw [Pattern.pieces_whole, String.ofList_toList]
  unfold stripFallbackBlocks
  rw [hwhole]
  split
  · rfl
  · next hblank =>
    rw [not_not.mp hblank]
    decide

/-- A reply without blocks is read as one body. -/
theorem parse_single : ((do
    let calls ← loopFrom (fun _ => callsOf py) 0 [body]
    pure calls.flatten : Except PyError _).toOption.getD []) = blockCalls py body := by
  unfold blockCalls loopFrom
  cases callsOf py body with
  | error e => rfl
  | ok calls => exact List.append_nil calls

theorem parse_bare (h : fencedBodies reply = []) : (parseFallbackBlocks py reply).toOption.getD [] = [] ↔
    (startsWithAny ["\x7b", "["] (strip reply) = true → ¬NamesTool py (strip reply)) := by
  unfold parseFallbackBlocks callBodies
  rw [if_pos h]
  by_cases hstart : startsWithAny ["\x7b", "["] (strip reply) = true
  · rw [if_pos hstart, parse_single, blockCalls_eq_nil]
    exact ⟨fun hnot _ => hnot, fun hnot => hnot hstart⟩
  · rw [if_neg hstart]
    exact ⟨fun _ hstarts => absurd hstarts hstart, fun _ => rfl⟩

theorem strips_bare_iff (h : fencedBodies reply = []) : stripFallbackBlocks reply = stripCallBlocks py reply ↔
    (startsWithAny ["\x7b", "["] (strip reply) = true → ¬NamesTool py (strip reply)) := by
  rw [stripFallbackBlocks_bare h, ← parse_bare h]
  unfold stripCallBlocks
  rw [if_pos h]
  split
  · next hnone => exact ⟨fun _ => hnone, fun _ => rfl⟩
  · next hcalls =>
    constructor
    · -- a reply that is read as a call is not blank
      intro hblank
      rw [parse_bare h, hblank]
      have hstart : startsWithAny ["\x7b", "["] "" = false := by decide
      rw [hstart]
      exact nofun
    · exact fun hnone => absurd hnone hcalls

/-! ## A reply with blocks -/

/-- The letters that are not blank. -/
def ink (chars : List Char) : Nat := chars.countP fun c => !isSpace c

theorem ink_append (l m : List Char) : ink (l ++ m) = ink l + ink m := List.countP_append

theorem ink_strip (s : String) : ink (strip s).toList = ink s.toList := by
  rw [toList_strip]
  exact countP_trim s.toList

theorem found_starts {whole body : List Char} (h : .found whole body ∈ fencePieces reply) :
    ∃ rest, whole = '`' :: '`' :: '`' :: rest := by
  obtain ⟨rest, hfind⟩ := Pattern.mem_pieces_found h
  obtain ⟨opening, hwhole⟩ := findFence_eq_some hfind
  exact ⟨_, List.append_cancel_right hwhole⟩

theorem mem_fencedBodies {whole body : List Char} (h : .found whole body ∈ fencePieces reply) :
    String.ofList body ∈ fencedBodies reply :=
  List.mem_map_of_mem (List.mem_filterMap.mpr ⟨_, h, rfl⟩)

theorem exists_found (h : body ∈ fencedBodies reply) :
    ∃ whole chars, .found whole chars ∈ fencePieces reply ∧ body = String.ofList chars := by
  obtain ⟨chars, hchars, rfl⟩ := List.mem_map.mp h
  obtain ⟨piece, hpiece, heq⟩ := List.mem_filterMap.mp hchars
  cases piece with
  | plain c => cases heq
  | found whole _ =>
    cases heq
    exact ⟨whole, chars, hpiece, rfl⟩

/-- Kept blocks are seen. -/
theorem ink_shown_le (hwhole : ∀ whole body, .found whole body ∈ pieces → 0 < ink whole) :
    ink (pieces.filterMap Piece.plain?) ≤ ink (pieces.flatMap (shownPiece py)) ∧
      ((∃ whole body, .found whole body ∈ pieces ∧ blockCalls py (String.ofList body) = []) →
        ink (pieces.filterMap Piece.plain?) < ink (pieces.flatMap (shownPiece py))) := by
  induction pieces with
  | nil => simp
  | cons piece pieces ih =>
    obtain ⟨hle, hlt⟩ := ih fun whole body hmem => hwhole whole body (List.mem_cons_of_mem _ hmem)
    rw [List.flatMap_cons, ink_append]
    cases piece with
    | plain c =>
      have hplain : ink (c :: pieces.filterMap Piece.plain?) = ink [c] + ink (pieces.filterMap Piece.plain?) :=
        ink_append [c] _
      rw [Piece.filterMap_plain?_plain, hplain, shownPiece]
      refine ⟨by omega, ?_⟩
      rintro ⟨whole, body, hmem, hnone⟩
      rcases List.mem_cons.mp hmem with heq | hlater
      · cases heq
      · have hmore := hlt ⟨whole, body, hlater, hnone⟩
        omega
    | found whole body =>
      have hpos := hwhole whole body List.mem_cons_self
      rw [Piece.filterMap_plain?_found]
      refine ⟨by omega, ?_⟩
      rintro ⟨whole', body', hmem, hnone⟩
      rcases List.mem_cons.mp hmem with heq | hlater
      · cases heq
        rw [shownPiece, if_pos hnone]
        omega
      · have hmore := hlt ⟨whole', body', hlater, hnone⟩
        omega

theorem shown_of_calls (h : ∀ whole body, .found whole body ∈ pieces → blockCalls py (String.ofList body) ≠ []) :
    pieces.flatMap (shownPiece py) = pieces.filterMap Piece.plain? := by
  induction pieces with
  | nil => rfl
  | cons piece pieces ih =>
    have hrest := ih fun whole body hmem => h whole body (List.mem_cons_of_mem _ hmem)
    rw [List.flatMap_cons, hrest]
    cases piece with
    | plain c => rw [Piece.filterMap_plain?_plain, shownPiece, List.singleton_append]
    | found whole body =>
      rw [Piece.filterMap_plain?_found, shownPiece, if_neg (h whole body List.mem_cons_self), List.nil_append]

theorem startsWith_fence {chars : List Char} (rest : List Char)
    (h : chars.dropWhile isSpace = '`' :: '`' :: '`' :: rest) :
    ['`', '`', '`'].isPrefixOf (trim isSpace chars) = true := by
  have htick : isSpace '`' = false := by decide
  unfold trim
  rw [h, List.isPrefixOf_iff_prefix]
  have hsplit : ('`' :: '`' :: '`' :: rest).rdropWhile isSpace = ['`', '`', '`'] ++ rest.rdropWhile isSpace := by
    show (['`', '`', '`'] ++ rest).rdropWhile isSpace = _
    unfold List.rdropWhile
    rw [List.reverse_append, List.dropWhile_append]
    split
    · next hblank =>
      rw [List.isEmpty_iff.mp hblank, List.reverse_nil, List.append_nil]
      show (['`', '`', '`'].dropWhile isSpace).reverse = ['`', '`', '`']
      rw [List.dropWhile_cons_of_neg (by rw [htick]; exact Bool.false_ne_true)]
      rfl
    · rw [List.reverse_append, List.reverse_reverse]
  rw [hsplit]
  exact List.prefix_append _ _

/-- Between the blocks of a reply there are only blanks, and it starts with a fence. -/
theorem starts_of_blank (h : fencedBodies reply ≠ []) (hblank : strip (withoutFences reply) = "") :
    startsWithAny ["\x7b", "[", "```"] (strip reply) = true := by
  have hspaces : ∀ c ∈ (fencePieces reply).filterMap Piece.plain?, isSpace c = true := by
    have hall := strip_eq_empty_iff.mp hblank
    unfold withoutFences at hall
    rwa [String.toList_ofList] at hall
  have hfence : ∃ rest, reply.toList.dropWhile isSpace = '`' :: '`' :: '`' :: rest := by
    have hwhole : (fencePieces reply).flatMap Piece.whole = reply.toList := Pattern.pieces_whole _ _
    have hstarts : ∀ whole body, .found whole body ∈ fencePieces reply → ∃ rest, whole = '`' :: '`' :: '`' :: rest :=
      fun whole body hmem => found_starts hmem
    rw [← hwhole]
    have hfound : (fencePieces reply).filterMap Piece.found? ≠ [] := fun hnone => h (List.map_eq_nil_iff.mpr hnone)
    clear hwhole hblank h
    generalize fencePieces reply = pieces at *
    induction pieces with
    | nil => exact absurd rfl hfound
    | cons piece pieces ih =>
      cases piece with
      | plain c =>
        rw [Piece.filterMap_plain?_plain, List.forall_mem_cons] at hspaces
        rw [List.flatMap_cons]
        show ∃ rest, (c :: pieces.flatMap Piece.whole).dropWhile isSpace = _
        rw [List.dropWhile_cons_of_pos hspaces.1]
        exact ih hspaces.2 (fun whole body hmem => hstarts whole body (List.mem_cons_of_mem _ hmem)) hfound
      | found whole body =>
        obtain ⟨rest, rfl⟩ := hstarts whole body List.mem_cons_self
        rw [List.flatMap_cons]
        exact ⟨_, List.dropWhile_cons_of_neg (by decide)⟩
  obtain ⟨rest, hrest⟩ := hfence
  have hprefix := startsWith_fence rest hrest
  unfold startsWithAny
  rw [List.any_eq_true]
  refine ⟨"```", by simp, ?_⟩
  rw [toList_strip]
  exact hprefix

theorem stripFallbackBlocks_fenced (h : fencedBodies reply ≠ []) :
    stripFallbackBlocks reply = strip (withoutFences reply) := by
  unfold stripFallbackBlocks
  split
  · rfl
  · next hblank =>
    have hempty := not_not.mp hblank
    rw [if_pos (starts_of_blank h hempty), hempty]

theorem strips_fenced_iff (h : fencedBodies reply ≠ []) :
    stripFallbackBlocks reply = stripCallBlocks py reply ↔ ∀ body ∈ fencedBodies reply, NamesTool py body := by
  rw [stripFallbackBlocks_fenced h]
  unfold stripCallBlocks
  rw [if_neg h]
  constructor
  · intro hsame body hbody
    obtain ⟨whole, chars, hfound, rfl⟩ := exists_found hbody
    by_contra hnot
    have hwhole : ∀ whole body, .found whole body ∈ fencePieces reply → 0 < ink whole := by
      intro whole body hmem
      obtain ⟨rest, rfl⟩ := found_starts hmem
      exact List.countP_pos_iff.mpr ⟨'`', List.mem_cons_self, by decide⟩
    have hlt := (@ink_shown_le py _ hwhole).2 ⟨whole, chars, hfound, blockCalls_eq_nil.mpr hnot⟩
    have hink := congrArg (fun s => ink (String.toList s)) hsame
    rw [ink_strip, ink_strip, withoutFences, String.toList_ofList, String.toList_ofList] at hink
    omega
  · intro hcalls
    unfold withoutFences
    rw [shown_of_calls]
    intro whole body hmem hnone
    exact blockCalls_eq_nil.mp hnone (hcalls _ (mem_fencedBodies hmem))

end

/-- What is shown is the reply without its calls exactly when every block is a call and a reply without blocks is
not. -/
theorem strips_calls_iff (py : PythonJson) (reply : String) :
    stripFallbackBlocks reply = stripCallBlocks py reply ↔ OnlyCallBlocks py reply := by
  by_cases h : fencedBodies reply = []
  · rw [strips_bare_iff h]
    refine ⟨fun hbare => ⟨?_, fun _ => hbare⟩, fun honly => honly.bare h⟩
    rw [h]
    exact fun _ hmem => absurd hmem List.not_mem_nil
  · rw [strips_fenced_iff h]
    exact ⟨fun hfenced => ⟨hfenced, fun hnone => absurd hnone h⟩, OnlyCallBlocks.fenced⟩

/-! ## An answer with code -/

def codeAnswer : String := "X\n```\nx = 1\n```"

/-- The text of the block is not JSON. -/
def noJson : PythonJson where
  loads := fun _ => .invalid
  str := fun _ => ""

/-- The code of the answer is not shown. -/
theorem code_is_deleted : ¬∀ py reply, stripFallbackBlocks reply = stripCallBlocks py reply := by
  intro hclaim
  have hbodies : fencedBodies codeAnswer = ["x = 1\n"] := by decide
  have hfenced : fencedBodies codeAnswer ≠ [] := by
    rw [hbodies]
    exact List.cons_ne_nil _ _
  obtain ⟨_, hnone, -⟩ := (strips_fenced_iff hfenced).mp (hclaim noJson codeAnswer) "x = 1\n" (by simp [hbodies])
  cases hnone

end NexaHR
