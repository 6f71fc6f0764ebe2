import NexaHR.Foundations.Trimming

/-! # Texts without outer blanks

Two notions of a blank meet in the source: `str.strip` also takes the four separators U+001C to U+001F, the
`str_strip_whitespace` of the schemas does not.

* `strip`, `stripWhitespace`: a text without its outer blanks, in either sense.
* `strip_eq_self_iff`, `strip_strip`, `strip_append`: what `strip` leaves alone.
-/

namespace NexaHR

open Foundations

set_option autoImplicit false

/-- What Python's `split` separates at. -/
def isSpace (c : Char) : Bool :=
  c.isWhitespace || c.toNat ∈ [0x0b, 0x0c, 0x1c, 0x1d, 0x1e, 0x1f, 0x85, 0xa0, 0x1680, 0x2000, 0x2001,
    0x2002, 0x2003, 0x2004, 0x2005, 0x2006, 0x2007, 0x2008, 0x2009, 0x200a, 0x2028, 0x2029, 0x202f,
    0x205f, 0x3000]

/-- `str.strip`. -/
def strip (s : String) : String :=
  String.ofList (((s.toList.dropWhile isSpace).reverse.dropWhile isSpace).reverse)

/-- The white space of Unicode. -/
def isWhiteSpace (c : Char) : Bool := isSpace c && c.toNat ∉ [0x1c, 0x1d, 0x1e, 0x1f]

/-- `str_strip_whitespace` of a schema. -/
def stripWhitespace (s : String) : String := String.ofList (trim isWhiteSpace s.toList)

/-- What JavaScript's `trim` strips. -/
def isJsSpace (c : Char) : Bool :=
  c.isWhitespace || c.toNat ∈ [0x0b, 0x0c, 0xa0, 0x1680, 0x2000, 0x2001, 0x2002, 0x2003, 0x2004, 0x2005,
    0x2006, 0x2007, 0x2008, 0x2009, 0x200a, 0x2028, 0x2029, 0x202f, 0x205f, 0x3000, 0xfeff]

/-- The first characters of a text. -/
def firstChars (n : Nat) (s : String) : String := String.ofList (s.toList.take n)

/-! ## What stripping gives -/

theorem toList_strip (s : String) : (strip s).toList = trim isSpace s.toList := String.toList_ofList

theorem strip_eq_self_iff {s : String} : strip s = s ↔ Trimmed isSpace s.toList := by
  rw [← trim_eq_self_iff, ← toList_strip, String.toList_inj]

@[simp] theorem strip_strip (s : String) : strip (strip s) = strip s := by
  rw [strip_eq_self_iff, toList_strip]
  exact trimmed_trim _

/-- Characters may be exchanged in a stripped text as long as blanks stay blanks. -/
theorem strip_map {f : Char → Char} (hf : ∀ c, isSpace (f c) = isSpace c) {s : String} (hs : strip s = s) :
    strip (String.ofList (s.toList.map f)) = String.ofList (s.toList.map f) := by
  rw [strip_eq_self_iff] at hs ⊢
  rw [String.toList_ofList]
  exact hs.map hf

theorem strip_eq_empty_iff {s : String} : strip s = "" ↔ ∀ c ∈ s.toList, isSpace c = true := by
  rw [← trim_eq_nil_iff, ← toList_strip, ← String.toList_inj]
  rfl

@[simp] theorem strip_empty : strip "" = "" := by decide

/-- Two stripped texts are stripped together, whatever stands between them. -/
theorem strip_append {s t : String} (hs : strip s = s) (ht : strip t = t) (hsne : s ≠ "") (htne : t ≠ "")
    (m : String) : strip (s ++ m ++ t) = s ++ m ++ t := by
  rw [strip_eq_self_iff] at hs ht ⊢
  have hsl : s.toList ≠ [] := by simpa using hsne
  have htl : t.toList ≠ [] := by simpa using htne
  have hboth := hs.append ht hsl htl m.toList
  simpa [String.toList_append, List.append_assoc] using hboth

end NexaHR
