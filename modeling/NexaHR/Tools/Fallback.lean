import NexaHR.Core.Json
import NexaHR.Core.Texts
import NexaHR.Core.Wire
import NexaHR.Foundations.Checks
import NexaHR.Foundations.Scanning

/-! # Tool calls in the text of a reply

`services/ai/tools/base.py`: a service without tool calls of its own writes them as JSON in fenced blocks.

* `fence`: the pattern of a block.
* `parseFallbackBlocks`: the calls of a reply.
* `stripFallbackBlocks`: the reply without its blocks.
-/

namespace NexaHR

open Foundations

set_option autoImplicit false

/-! ## The pattern -/

def isBlankChar (c : Char) : Bool := c = ' ' || c = '\t'

def fenceLabels : List (List Char) := [['p', 'u', 'l', 's', 'e'], ['j', 's', 'o', 'n'], ['t', 'o', 'o', 'l']]

/-- `IGNORECASE`, for which the long s is an s as well. -/
def matchesLetter (letter c : Char) : Bool := c.toLower = letter || (letter = 's' && c = 'ſ')

def afterFence : List Char → Option (List Char)
  | '`' :: '`' :: '`' :: rest => some rest
  | _ => none

def startsWithLabel : List Char → List Char → Bool
  | [], _ => true
  | _ :: _, [] => false
  | letter :: label, c :: chars => matchesLetter letter c && startsWithLabel label chars

def dropLabel (chars : List Char) : List Char :=
  match fenceLabels.find? fun label => startsWithLabel label chars with
  | some label => chars.drop label.length
  | none => chars

def afterNewline : List Char → Option (List Char)
  | '\r' :: '\n' :: rest => some rest
  | '\n' :: rest => some rest
  | _ => none

/-- What follows the opening line of a block. -/
def afterOpening (chars : List Char) : Option (List Char) :=
  (afterFence chars).bind fun rest => afterNewline ((dropLabel (rest.dropWhile isBlankChar)).dropWhile isBlankChar)

/-- What stands before the next fence, and what after it. -/
def cutAtFence : List Char → Option (List Char × List Char)
  | [] => none
  | c :: chars =>
    match afterFence (c :: chars) with
    | some rest => some ([], rest)
    | none => (cutAtFence chars).map fun parts => (c :: parts.1, parts.2)

theorem afterFence_eq_some {chars rest : List Char} (h : afterFence chars = some rest) :
    chars = '`' :: '`' :: '`' :: rest := by
  unfold afterFence at h
  split at h
  · cases h
    rfl
  · cases h

theorem afterNewline_suffix {chars rest : List Char} (h : afterNewline chars = some rest) : rest <:+ chars := by
  unfold afterNewline at h
  split at h
  · cases h
    exact ⟨['\r', '\n'], rfl⟩
  · cases h
    exact ⟨['\n'], rfl⟩
  · cases h

theorem dropLabel_suffix (chars : List Char) : dropLabel chars <:+ chars := by
  unfold dropLabel
  split
  · exact List.drop_suffix _ _
  · exact List.suffix_refl _

theorem afterOpening_eq_some {chars rest : List Char} (h : afterOpening chars = some rest) :
    ∃ opening, chars = '`' :: '`' :: '`' :: opening ++ rest := by
  obtain ⟨after, hfence, hline⟩ := Option.bind_eq_some_iff.mp h
  have hsuffix : rest <:+ after := (afterNewline_suffix hline).trans
    ((List.dropWhile_suffix _).trans ((dropLabel_suffix _).trans (List.dropWhile_suffix _)))
  obtain ⟨opening, hopening⟩ := hsuffix
  refine ⟨opening, ?_⟩
  rw [afterFence_eq_some hfence, ← hopening]
  rfl

theorem cutAtFence_eq_some {chars body rest : List Char} (h : cutAtFence chars = some (body, rest)) :
    chars = body ++ '`' :: '`' :: '`' :: rest := by
  induction chars generalizing body with
  | nil => cases h
  | cons c chars ih =>
    unfold cutAtFence at h
    split at h
    · next rest' hfence =>
      cases h
      rw [afterFence_eq_some hfence]
      rfl
    · obtain ⟨parts, hparts, heq⟩ := Option.map_eq_some_iff.mp h
      cases heq
      rw [ih hparts]
      rfl

def findFence (chars : List Char) : Option (List Char × List Char) := (afterOpening chars).bind cutAtFence

theorem findFence_eq_some {chars body rest : List Char} (h : findFence chars = some (body, rest)) :
    ∃ opening, chars = ('`' :: '`' :: '`' :: opening ++ body ++ ['`', '`', '`']) ++ rest := by
  obtain ⟨after, hopening, hcut⟩ := Option.bind_eq_some_iff.mp h
  obtain ⟨opening, hchars⟩ := afterOpening_eq_some hopening
  refine ⟨opening, ?_⟩
  rw [hchars, cutAtFence_eq_some hcut]
  simp

/-- `_FENCE`; what it finds is the body of the block. -/
def fence : Pattern Char (List Char) where
  find? := findFence
  consumes := by
    intro chars body rest h
    obtain ⟨opening, hchars⟩ := findFence_eq_some h
    exact ⟨_, by simp, hchars⟩

def fencePieces (reply : String) : List (Piece Char (List Char)) := fence.pieces reply.toList

/-! ## Calls -/

/-- What `json.loads` comes to: a value, a `ValueError`, or a `RecursionError` where a text is nested beyond the
stack. -/
inductive Loaded
  | value (v : PyJson)
  | invalid
  | tooDeep

/-- What the code takes from Python: `json.loads`, and `str` of a value that is not a text. -/
structure PythonJson where
  loads : String → Loaded
  str : PyJson → String

namespace PythonJson

def text (py : PythonJson) : PyJson → String
  | .str s => s
  | v => py.str v

end PythonJson

/-- The truth of a value. -/
def PyJson.isTrue : PyJson → Bool
  | .none => false
  | .bool b => b
  | .number n => !n.isZero
  | .str s => s ≠ ""
  | .list items => !items.isEmpty
  | .dict items => !items.isEmpty

def PyJson.or (v w : PyJson) : PyJson := if v.isTrue then v else w

/-- `dict.get`. -/
def getField (fields : List (PyKey × PyJson)) (name : String) : PyJson :=
  ((fields.find? fun field => field.1 = .str name).map Prod.snd).getD .none

def toolName (py : PythonJson) (fields : List (PyKey × PyJson)) : String :=
  strip (py.text (((getField fields "tool").or (getField fields "action")).or (.str "")))

def reservedKeys : List String := ["tool", "action", "arguments", "payload"]

def toolArguments (fields : List (PyKey × PyJson)) : List (PyKey × PyJson) :=
  match (getField fields "arguments").or (getField fields "payload") with
  | .dict arguments => arguments
  | _ => fields.filter fun field => field.1 ∉ reservedKeys.map PyKey.str

def itemsOf : PyJson → List PyJson
  | .list items => items
  | v => [v]

def callOf (py : PythonJson) : PyJson → Option (String × List (PyKey × PyJson))
  | .dict fields => if toolName py fields = "" then none else some (toolName py fields, toolArguments fields)
  | _ => none

/-- The calls of a body. An invalid text is passed over. -/
def callsOf (py : PythonJson) (body : String) : Except PyError (List (String × List (PyKey × PyJson))) :=
  match py.loads body with
  | .value parsed => .ok ((itemsOf parsed).filterMap (callOf py))
  | .invalid => .ok []
  | .tooDeep => .error .recursionError

def fencedBodies (reply : String) : List String := ((fencePieces reply).filterMap Piece.found?).map String.ofList

def startsWithAny (marks : List String) (text : String) : Bool :=
  marks.any fun mark => mark.toList.isPrefixOf text.toList

/-- The bodies that are read: those of the blocks, else a reply that is JSON as a whole. -/
def callBodies (reply : String) : List String :=
  if fencedBodies reply = [] then
    if startsWithAny ["\x7b", "["] (strip reply) then [strip reply] else []
  else fencedBodies reply

/-- `parse_fallback_blocks`. -/
def parseFallbackBlocks (py : PythonJson) (reply : String) :
    Except PyError (List (String × List (PyKey × PyJson))) := do
  let calls ← loopFrom (fun _ => callsOf py) 0 (callBodies reply)
  pure calls.flatten

/-- `_FENCE.sub`. -/
def withoutFences (reply : String) : String := String.ofList ((fencePieces reply).filterMap Piece.plain?)

/-- `strip_fallback_blocks`. -/
def stripFallbackBlocks (reply : String) : String :=
  if strip (withoutFences reply) ≠ "" then strip (withoutFences reply)
  else if startsWithAny ["\x7b", "[", "```"] (strip reply) then "" else strip reply

end NexaHR
