import NexaHR.Foundations.Trimming

/-! # Where an address on a page leads

An address is resolved against the page it stands on, of a site that is served by http or https. There a backslash is
a slash, control characters at the two ends are dropped, and tabs and line ends wherever they stand.

* `Browser`: what the browser makes of a host, and of what follows a scheme.
* `resolve`: the scheme that is written, or else the origin the address leads to.
* `LeadsOut address`: two slashes open another host, and no scheme says so.
-/

namespace NexaHR.Foundations

set_option autoImplicit false

/-- The origin of the page, and how hosts are read on it. -/
structure Browser (O : Type) where
  /-- Served by https. -/
  secure : Bool
  own : O
  /-- The origin that a text after two slashes begins with. -/
  authority : List Char → Option O
  /-- Whether what follows the scheme can be read. -/
  readable : List Char → List Char → Bool

inductive Destination (O : Type)
  | scheme (name : List Char)
  | origin (o : O)

def isC0OrSpace (c : Char) : Bool := c.toNat ≤ 0x20

def isTabOrNewline (c : Char) : Bool := c = '\t' || c = '\n' || c = '\r'

/-- The address as the rules go through it. -/
def cleaned (address : List Char) : List Char := (trim isC0OrSpace address).filter fun c => !isTabOrNewline c

def isSlash (c : Char) : Bool := c = '/' || c = '\\'

def isSchemeChar (c : Char) : Bool := c.isAlphanum || c = '+' || c = '-' || c = '.'

/-- The scheme that is written in front, in small letters, and what follows it. -/
def writtenScheme : List Char → Option (List Char × List Char)
  | [] => none
  | c :: rest =>
    if c.isAlpha then
      match rest.dropWhile isSchemeChar with
      | ':' :: after => some ((c :: rest.takeWhile isSchemeChar).map Char.toLower, after)
      | _ => none
    else none

/-- What follows two slashes, and the slashes after them. -/
def afterSlashes : List Char → Option (List Char)
  | c :: d :: rest => if isSlash c && isSlash d then some (rest.dropWhile isSlash) else none
  | _ => none

namespace Browser

variable {O : Type} (b : Browser O)

def resolve (address : List Char) : Option (Destination O) :=
  match writtenScheme (cleaned address) with
  | some (name, rest) => if b.readable name rest then some (.scheme name) else none
  | none =>
    match afterSlashes (cleaned address) with
    | some rest => (b.authority rest).map .origin
    | none => some (.origin b.own)

/-- The scheme of what an address resolves to. -/
def schemeOf (d : Destination O) : List Char :=
  match d with
  | .scheme name => name
  | .origin _ => if b.secure then ['h', 't', 't', 'p', 's'] else ['h', 't', 't', 'p']

/-- Another origin, or none at all, stands behind two slashes. -/
def LeadsOut (address : List Char) : Prop :=
  ∃ rest, afterSlashes (cleaned address) = some rest ∧ b.authority rest ≠ some b.own

variable {b} {address : List Char}

theorem writtenScheme_of_slashes {l rest : List Char} (h : afterSlashes l = some rest) : writtenScheme l = none := by
  unfold afterSlashes at h
  split at h
  · next c d after =>
    split at h
    · next hslashes =>
      have hc : c.isAlpha = false := by
        rw [Bool.and_eq_true] at hslashes
        have hslash := hslashes.1
        unfold isSlash at hslash
        rw [Bool.or_eq_true, decide_eq_true_iff, decide_eq_true_iff] at hslash
        cases hslash with
        | inl h => rw [h]; decide
        | inr h => rw [h]; decide
      simp [writtenScheme, hc]
    · cases h
  · cases h

/-- An address without a scheme stays with the page unless two slashes lead out. -/
theorem resolve_own_iff (hnone : writtenScheme (cleaned address) = none) :
    b.resolve address = some (.origin b.own) ↔ ¬b.LeadsOut address := by
  unfold resolve LeadsOut
  rw [hnone]
  dsimp only
  cases afterSlashes (cleaned address) with
  | none => simp
  | some rest => simp

/-- What resolves without a scheme has the page's scheme. -/
theorem schemeOf_origin (o : O) :
    b.schemeOf (.origin o) = ['h', 't', 't', 'p', 's'] ∨ b.schemeOf (.origin o) = ['h', 't', 't', 'p'] := by
  unfold schemeOf
  dsimp only
  split
  · exact Or.inl rfl
  · exact Or.inr rfl

end Browser

end NexaHR.Foundations
