import Mathlib.Data.List.Basic
import Mathlib.Tactic.Common

/-! # Percent-encoding

A text is written as the bytes of its UTF-8 form, each either as the letter it stands for or as `%` with two
hexadecimal digits. Reading goes the other way; bytes that are no UTF-8 become U+FFFD.

* `utf8`, `decodeUtf8`: the bytes of a text, and the text of bytes. `decodeUtf8_utf8`.
* `quote`, `unquote`: the written form and back. `unquote_quote`.
-/

namespace NexaHR.Foundations

set_option autoImplicit false

/-! ## UTF-8 -/

def utf8Char (c : Char) : List Nat :=
  let n := c.toNat
  if n < 0x80 then [n]
  else if n < 0x800 then [0xc0 + n / 64, 0x80 + n % 64]
  else if n < 0x10000 then [0xe0 + n / 4096, 0x80 + n / 64 % 64, 0x80 + n % 64]
  else [0xf0 + n / 262144, 0x80 + n / 4096 % 64, 0x80 + n / 64 % 64, 0x80 + n % 64]

def utf8 (l : List Char) : List Nat := l.flatMap utf8Char

/-- How many bytes follow a first byte, and what it contributes. -/
def lead (b : Nat) : Option (Nat × Nat) :=
  if 0xc2 ≤ b ∧ b ≤ 0xdf then some (1, b - 0xc0)
  else if 0xe0 ≤ b ∧ b ≤ 0xef then some (2, b - 0xe0)
  else if 0xf0 ≤ b ∧ b ≤ 0xf4 then some (3, b - 0xf0)
  else none

/-- The range of the byte after the first, which excludes long forms and surrogates. -/
def secondRange (b : Nat) : Nat × Nat :=
  if b = 0xe0 then (0xa0, 0xbf)
  else if b = 0xed then (0x80, 0x9f)
  else if b = 0xf0 then (0x90, 0xbf)
  else if b = 0xf4 then (0x80, 0x8f)
  else (0x80, 0xbf)

/-- The value of the bytes that follow, and what comes after them. A byte that does not fit is not consumed. -/
def following : Nat → Nat × Nat → Nat → List Nat → Option Nat × List Nat
  | 0, _, value, rest => (some value, rest)
  | _ + 1, _, _, [] => (none, [])
  | n + 1, range, value, b :: rest =>
    if range.1 ≤ b ∧ b ≤ range.2 then following n (0x80, 0xbf) (value * 64 + (b - 0x80)) rest else (none, b :: rest)

def replacementChar : Char := '\ufffd'

def readChar (b : Nat) (rest : List Nat) : Char × List Nat :=
  if b < 0x80 then (Char.ofNat b, rest)
  else match lead b with
    | none => (replacementChar, rest)
    | some (n, value) =>
      let found := following n (secondRange b) value rest
      ((found.1.map Char.ofNat).getD replacementChar, found.2)

def decodeWith : Nat → List Nat → List Char
  | 0, _ => []
  | _ + 1, [] => []
  | n + 1, b :: rest => (readChar b rest).1 :: decodeWith n (readChar b rest).2

/-- `bytes.decode("utf-8", "replace")`. -/
def decodeUtf8 (bytes : List Nat) : List Char := decodeWith bytes.length bytes

theorem toNat_cases (c : Char) : c.toNat < 0xd800 ∨ 0xdfff < c.toNat ∧ c.toNat < 0x110000 := c.valid

theorem utf8Char_bytes (c : Char) : ∀ b ∈ utf8Char c, b < 256 := by
  have hc := toNat_cases c
  intro b hb
  unfold utf8Char at hb
  dsimp only at hb
  split at hb
  · simp only [List.mem_singleton] at hb
    omega
  split at hb
  · simp only [List.mem_cons, List.not_mem_nil, or_false] at hb
    omega
  split at hb
  · simp only [List.mem_cons, List.not_mem_nil, or_false] at hb
    omega
  · simp only [List.mem_cons, List.not_mem_nil, or_false] at hb
    omega

/-- The bytes of a character read back as the character. -/
theorem readChar_utf8Char (c : Char) (rest : List Nat) :
    ∃ b more, utf8Char c = b :: more ∧ readChar b (more ++ rest) = (c, rest) := by
  have hvalid := toNat_cases c
  unfold utf8Char
  dsimp only
  split
  · next h =>
    refine ⟨_, [], rfl, ?_⟩
    unfold readChar
    rw [if_pos h, Char.ofNat_toNat]
    rfl
  split
  · next h1 h2 =>
    refine ⟨_, _, rfl, ?_⟩
    have hlead : lead (0xc0 + c.toNat / 64) = some (1, c.toNat / 64) := by
      unfold lead
      rw [if_pos (by omega)]
      rw [Nat.add_sub_cancel_left]
    have hrange : secondRange (0xc0 + c.toNat / 64) = (0x80, 0xbf) := by
      unfold secondRange
      rw [if_neg (by omega), if_neg (by omega), if_neg (by omega), if_neg (by omega)]
    have hvalue : c.toNat / 64 * 64 + (0x80 + c.toNat % 64 - 0x80) = c.toNat := by omega
    unfold readChar
    rw [if_neg (by omega), hlead]
    simp only [hrange, List.cons_append, List.nil_append, following]
    rw [if_pos (by omega), hvalue]
    simp
  split
  · next h1 h2 h3 =>
    refine ⟨_, _, rfl, ?_⟩
    have hlead : lead (0xe0 + c.toNat / 4096) = some (2, c.toNat / 4096) := by
      unfold lead
      rw [if_neg (by omega), if_pos (by omega)]
      rw [Nat.add_sub_cancel_left]
    have hrange : (secondRange (0xe0 + c.toNat / 4096)).1 ≤ 0x80 + c.toNat / 64 % 64 ∧
        0x80 + c.toNat / 64 % 64 ≤ (secondRange (0xe0 + c.toNat / 4096)).2 := by
      unfold secondRange
      split
      · dsimp only
        omega
      split
      · dsimp only
        omega
      rw [if_neg (by omega), if_neg (by omega)]
      dsimp only
      omega
    have hvalue : (c.toNat / 4096 * 64 + (0x80 + c.toNat / 64 % 64 - 0x80)) * 64 + (0x80 + c.toNat % 64 - 0x80) =
        c.toNat := by omega
    unfold readChar
    rw [if_neg (by omega), hlead]
    simp only [List.cons_append, List.nil_append, following]
    rw [if_pos hrange, if_pos (by omega), hvalue]
    simp
  · next h1 h2 h3 =>
    refine ⟨_, _, rfl, ?_⟩
    have hlead : lead (0xf0 + c.toNat / 262144) = some (3, c.toNat / 262144) := by
      unfold lead
      rw [if_neg (by omega), if_neg (by omega), if_pos (by omega)]
      rw [Nat.add_sub_cancel_left]
    have hrange : (secondRange (0xf0 + c.toNat / 262144)).1 ≤ 0x80 + c.toNat / 4096 % 64 ∧
        0x80 + c.toNat / 4096 % 64 ≤ (secondRange (0xf0 + c.toNat / 262144)).2 := by
      unfold secondRange
      rw [if_neg (by omega), if_neg (by omega)]
      split
      · dsimp only
        omega
      split
      · dsimp only
        omega
      dsimp only
      omega
    have hvalue : ((c.toNat / 262144 * 64 + (0x80 + c.toNat / 4096 % 64 - 0x80)) * 64 +
        (0x80 + c.toNat / 64 % 64 - 0x80)) * 64 + (0x80 + c.toNat % 64 - 0x80) = c.toNat := by omega
    unfold readChar
    rw [if_neg (by omega), hlead]
    simp only [List.cons_append, List.nil_append, following]
    rw [if_pos hrange, if_pos (by omega), if_pos (by omega), hvalue]
    simp

theorem decodeWith_utf8 (l : List Char) (n : Nat) (hn : (utf8 l).length ≤ n) : decodeWith n (utf8 l) = l := by
  induction l generalizing n with
  | nil => cases n <;> rfl
  | cons c l ih =>
    obtain ⟨b, more, hbytes, hread⟩ := readChar_utf8Char c (utf8 l)
    have hsplit : utf8 (c :: l) = b :: (more ++ utf8 l) := by
      unfold utf8
      rw [List.flatMap_cons, hbytes, List.cons_append]
    rw [hsplit, List.length_cons, List.length_append] at hn
    obtain ⟨m, rfl⟩ := Nat.exists_eq_succ_of_ne_zero (by omega : n ≠ 0)
    rw [hsplit, decodeWith, hread, ih m (by omega)]

/-- A text is read back from its bytes. -/
theorem decodeUtf8_utf8 (l : List Char) : decodeUtf8 (utf8 l) = l := decodeWith_utf8 l _ (Nat.le_refl _)

/-! ## The written form -/

/-- The letters that are written as they are. -/
def isUnreserved (c : Char) : Bool := c.isAlphanum || c = '_' || c = '.' || c = '-' || c = '~'

def hexUpper (n : Nat) : Char := if n < 10 then Char.ofNat (48 + n) else Char.ofNat (55 + n)

def quoteByte (b : Nat) : List Char :=
  if b < 128 && isUnreserved (Char.ofNat b) then [Char.ofNat b] else ['%', hexUpper (b / 16), hexUpper (b % 16)]

/-- `quote(s, safe="")`. -/
def quote (l : List Char) : List Char := (utf8 l).flatMap quoteByte

def hexValue (c : Char) : Option Nat :=
  if c.isDigit then some (c.toNat - 48)
  else if 'a' ≤ c ∧ c ≤ 'f' then some (c.toNat - 87)
  else if 'A' ≤ c ∧ c ≤ 'F' then some (c.toNat - 55)
  else none

/-- `unquote_to_bytes`. A `%` without two hexadecimal digits stands for itself. -/
def percentBytes : List Char → List Nat
  | [] => []
  | '%' :: a :: b :: rest =>
    match hexValue a, hexValue b with
    | some high, some low => (16 * high + low) :: percentBytes rest
    | _, _ => '%'.toNat :: percentBytes (a :: b :: rest)
  | c :: rest => c.toNat :: percentBytes rest

/-- The runs of ASCII letters are decoded, with `run` the letters of the run read last. -/
def unquoteRuns : List Char → List Char → List Char
  | run, [] => decodeUtf8 (percentBytes run)
  | run, c :: rest =>
    if c.toNat < 128 then unquoteRuns (run ++ [c]) rest
    else decodeUtf8 (percentBytes run) ++ c :: unquoteRuns [] rest

def unquote (l : List Char) : List Char := if '%' ∈ l then unquoteRuns [] l else l

theorem utf8_bytes (l : List Char) : ∀ b ∈ utf8 l, b < 256 := by
  intro b hb
  obtain ⟨c, _, hc⟩ := List.mem_flatMap.mp hb
  exact utf8Char_bytes c b hc

theorem hexValue_hexUpper {n : Nat} (h : n < 16) : hexValue (hexUpper n) = some n := by
  have hall : ∀ k < 16, hexValue (hexUpper k) = some k := by decide
  exact hall n h

theorem percentBytes_cons {c : Char} (h : c ≠ '%') (rest : List Char) :
    percentBytes (c :: rest) = c.toNat :: percentBytes rest := by
  rw [percentBytes]
  intro a b after heq
  exact absurd heq h

theorem toNat_ofNat_ascii {b : Nat} (h : b < 128) : (Char.ofNat b).toNat = b := by
  have hall : ∀ k < 128, (Char.ofNat k).toNat = k := by decide
  exact hall b h

theorem percentBytes_quoteByte {b : Nat} (hb : b < 256) (rest : List Char) :
    percentBytes (quoteByte b ++ rest) = b :: percentBytes rest := by
  unfold quoteByte
  split
  · next h =>
    rw [Bool.and_eq_true, decide_eq_true_iff] at h
    have hne : Char.ofNat b ≠ '%' := by
      intro heq
      have hunreserved := h.2
      rw [heq] at hunreserved
      revert hunreserved
      decide
    rw [List.singleton_append, percentBytes_cons hne, toNat_ofNat_ascii h.1]
  · have hvalue : 16 * (b / 16) + b % 16 = b := by omega
    simp only [List.cons_append, List.nil_append, percentBytes]
    rw [hexValue_hexUpper (by omega), hexValue_hexUpper (by omega)]
    simp only [hvalue]

theorem percentBytes_quote (l : List Char) : percentBytes (quote l) = utf8 l := by
  have hall : ∀ bytes : List Nat, (∀ b ∈ bytes, b < 256) → percentBytes (bytes.flatMap quoteByte) = bytes := by
    intro bytes
    induction bytes with
    | nil => intro _; rfl
    | cons b bytes ih =>
      intro h
      rw [List.flatMap_cons, percentBytes_quoteByte (h b (List.mem_cons_self ..)),
        ih fun x hx => h x (List.mem_cons_of_mem _ hx)]
  exact hall _ (utf8_bytes l)

/-- The characters of a written form. -/
theorem quoteByte_chars {b : Nat} (hb : b < 256) : ∀ c ∈ quoteByte b, isUnreserved c = true ∨ c = '%' := by
  have hhex : ∀ k < 16, isUnreserved (hexUpper k) = true := by decide
  intro c hc
  unfold quoteByte at hc
  split at hc
  · next h =>
    rw [List.mem_singleton] at hc
    rw [hc]
    exact Or.inl (Bool.and_eq_true_iff.mp h).2
  · simp only [List.mem_cons, List.not_mem_nil, or_false] at hc
    obtain hc | hc | hc := hc
    · exact Or.inr hc
    · exact Or.inl (hc ▸ hhex _ (by omega))
    · exact Or.inl (hc ▸ hhex _ (by omega))

theorem quote_chars (l : List Char) : ∀ c ∈ quote l, isUnreserved c = true ∨ c = '%' := by
  intro c hc
  obtain ⟨b, hb, hmem⟩ := List.mem_flatMap.mp hc
  exact quoteByte_chars (utf8_bytes l b hb) c hmem

theorem alphanum_range {c : Char} (h : c.isAlphanum = true) : 48 ≤ c.toNat ∧ c.toNat ≤ 122 := by
  unfold Char.isAlphanum Char.isAlpha Char.isUpper Char.isLower Char.isDigit at h
  simp only [Bool.or_eq_true, Bool.and_eq_true, decide_eq_true_iff, UInt32.le_iff_toNat_le, ge_iff_le] at h
  have hc : c.toNat = c.val.toNat := rfl
  have hupper : 'A'.val.toNat = 65 ∧ 'Z'.val.toNat = 90 := ⟨rfl, rfl⟩
  have hlower : 'a'.val.toNat = 97 ∧ 'z'.val.toNat = 122 := ⟨rfl, rfl⟩
  have hdigit : '0'.val.toNat = 48 ∧ '9'.val.toNat = 57 := ⟨rfl, rfl⟩
  omega

theorem alphanum_ascii {c : Char} (h : c.isAlphanum = true) : c.toNat < 128 := by
  have hrange := alphanum_range h
  omega

theorem unreserved_ascii {c : Char} (h : isUnreserved c = true) : c.toNat < 128 := by
  simp only [isUnreserved, Bool.or_eq_true, decide_eq_true_iff] at h
  obtain (((h | rfl) | rfl) | rfl) | rfl := h
  · exact alphanum_ascii h
  · decide
  · decide
  · decide
  · decide

theorem quote_ascii (l : List Char) : ∀ c ∈ quote l, c.toNat < 128 := by
  intro c hc
  obtain h | rfl := quote_chars l c hc
  · exact unreserved_ascii h
  · decide

theorem unquoteRuns_ascii (run l : List Char) (h : ∀ c ∈ l, c.toNat < 128) :
    unquoteRuns run l = decodeUtf8 (percentBytes (run ++ l)) := by
  induction l generalizing run with
  | nil => rw [unquoteRuns, List.append_nil]
  | cons c l ih =>
    rw [unquoteRuns, if_pos (h c (List.mem_cons_self ..)), ih _ fun x hx => h x (List.mem_cons_of_mem _ hx),
      List.append_assoc, List.singleton_append]

/-- What has no `%` is read as it stands. -/
theorem decode_plain (l : List Char) (hascii : ∀ c ∈ l, c.toNat < 128) (hplain : '%' ∉ l) :
    decodeUtf8 (percentBytes l) = l := by
  have hbytes : percentBytes l = utf8 l := by
    induction l with
    | nil => rfl
    | cons c l ih =>
      have hc : c ≠ '%' := fun heq => hplain (heq ▸ List.mem_cons_self ..)
      have hone : utf8Char c = [c.toNat] := if_pos (hascii c (List.mem_cons_self ..))
      rw [percentBytes_cons hc, ih (fun x hx => hascii x (List.mem_cons_of_mem _ hx))
        fun hmem => hplain (List.mem_cons_of_mem _ hmem)]
      unfold utf8
      rw [List.flatMap_cons, hone]
      rfl
  rw [hbytes, decodeUtf8_utf8]

theorem percentBytes_ne_nil {l : List Char} (h : l ≠ []) : percentBytes l ≠ [] := by
  unfold percentBytes
  split
  · exact absurd rfl h
  · split <;> exact List.cons_ne_nil _ _
  · exact List.cons_ne_nil _ _

theorem decodeUtf8_ne_nil {bytes : List Nat} (h : bytes ≠ []) : decodeUtf8 bytes ≠ [] := by
  obtain ⟨b, rest, rfl⟩ := List.exists_cons_of_ne_nil h
  exact List.cons_ne_nil _ _

theorem unquoteRuns_ne_nil {run l : List Char} (h : run ≠ [] ∨ l ≠ []) : unquoteRuns run l ≠ [] := by
  induction l generalizing run with
  | nil =>
    cases h with
    | inl hrun => exact decodeUtf8_ne_nil (percentBytes_ne_nil hrun)
    | inr hnil => exact absurd rfl hnil
  | cons c l ih =>
    unfold unquoteRuns
    split
    · exact ih (Or.inl (by simp))
    · simp

/-- Nothing is read as the empty text but the empty text. -/
theorem unquote_ne_nil {l : List Char} (h : l ≠ []) : unquote l ≠ [] := by
  unfold unquote
  split
  · exact unquoteRuns_ne_nil (Or.inr h)
  · exact h

/-- A text is read back from its written form. -/
theorem unquote_quote (l : List Char) : unquote (quote l) = l := by
  have hruns : unquoteRuns [] (quote l) = l := by
    rw [unquoteRuns_ascii [] _ (quote_ascii l), List.nil_append, percentBytes_quote, decodeUtf8_utf8]
  unfold unquote
  split
  · exact hruns
  · next hplain =>
    rw [← decode_plain _ (quote_ascii l) hplain, percentBytes_quote, decodeUtf8_utf8]

end NexaHR.Foundations
