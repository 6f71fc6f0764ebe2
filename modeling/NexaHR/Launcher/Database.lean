import NexaHR.Core.Texts
import NexaHR.Foundations.Addresses
import NexaHR.Foundations.Lines
import NexaHR.Foundations.Percent

/-! # The address of the database in the settings file

* `urlsplit`: the parts of an address, as `urllib.parse` finds them.
* `Endpoint`: the parts that the launcher keeps; `Endpoint.parse` reads them and `Endpoint.url` writes them.
* `readSetting`, `writeSetting`: one key of the settings file.
* `databaseEndpoint`: the host and port that the reachability check finds in the file.
-/

namespace NexaHR

open Foundations

set_option autoImplicit false

/-! ## Addresses -/

/-- What `str.splitlines` ends a line at. Reading the file has made every carriage return a newline. -/
def isLineBreak (c : Char) : Bool :=
  c.toNat ∈ [0x0a, 0x0b, 0x0c, 0x0d, 0x1c, 0x1d, 0x1e, 0x85, 0x2028, 0x2029]

/-- The characters whose compatibility form has one of `/?#@:` in it. -/
def isLookalike (c : Char) : Bool :=
  c.toNat ∈ [0x2047, 0x2048, 0x2049, 0x2100, 0x2101, 0x2105, 0x2106, 0x2a74, 0xfe13, 0xfe16, 0xfe55, 0xfe56, 0xfe5f,
    0xfe6b, 0xff03, 0xff0f, 0xff1a, 0xff1f, 0xff20]

/-- The characters that neither come nor go when letters are made small. -/
def isSteady (c : Char) : Bool := (c.toNat < 128 && !c.isAlpha) || isSpace c || isLineBreak c || isLookalike c

/-- What `urllib.parse` takes from the rest of the standard library. -/
structure UrlLibrary where
  /-- `str.lower`. -/
  lower : List Char → List Char
  lower_lower : ∀ l, lower (lower l) = lower l
  mem_lower : ∀ l c, isSteady c = true → (c ∈ lower l ↔ c ∈ l)
  lower_ascii : ∀ l, (∀ c ∈ l, c.toNat < 128) → lower l = l.map Char.toLower
  /-- Whether a text in brackets is an address of version 6 or later. -/
  bracketed : List Char → Bool

inductive UrlError
  | brackets
  | address
  | lookalike
  deriving DecidableEq

structure SplitUrl where
  scheme : List Char
  netloc : List Char
  path : List Char
  query : List Char
  fragment : List Char
  deriving DecidableEq

/-- `l.partition(c)`, without the middle. -/
def partition (c : Char) (l : List Char) : List Char × List Char :=
  (l.takeWhile (· ≠ c), (l.dropWhile (· ≠ c)).tail)

/-- `l.rpartition(c)`, without the middle, for an `l` that has `c`. -/
def rpartition (c : Char) (l : List Char) : List Char × List Char :=
  ((partition c l.reverse).2.reverse, (partition c l.reverse).1.reverse)

def staysInNetloc (c : Char) : Bool := c ≠ '/' && c ≠ '?' && c ≠ '#'

/-- The scheme, or nothing, and what follows it. -/
def splitScheme (url : List Char) : List Char × List Char := (writtenScheme url).getD ([], url)

def splitNetloc (url : List Char) : List Char × List Char :=
  if ['/', '/'] <+: url then ((url.drop 2).takeWhile staysInNetloc, (url.drop 2).dropWhile staysInNetloc) else ([], url)

/-- The address as `urlsplit` goes through it. -/
def stripped (url : List Char) : List Char := (url.dropWhile isC0OrSpace).filter fun c => !isTabOrNewline c

def urlsplit (lib : UrlLibrary) (url : List Char) : Except UrlError SplitUrl :=
  let scheme := splitScheme (stripped url)
  let netloc := splitNetloc scheme.2
  let fragment := partition '#' netloc.2
  let query := partition '?' fragment.1
  if decide ('[' ∈ netloc.1) ≠ decide (']' ∈ netloc.1) then .error .brackets
  else if '[' ∈ netloc.1 ∧ ¬lib.bracketed (partition ']' (partition '[' netloc.1).2).1 then .error .address
  else if netloc.1.any isLookalike then .error .lookalike
  else .ok ⟨scheme.1, netloc.1, query.1, query.2, fragment.2⟩

namespace SplitUrl

variable (u : SplitUrl)

/-- What stands in front of the host, when something does. -/
def userinfo : Option (List Char) := if '@' ∈ u.netloc then some (rpartition '@' u.netloc).1 else none

def hostinfo : List Char := if '@' ∈ u.netloc then (rpartition '@' u.netloc).2 else u.netloc

def username : Option (List Char) := u.userinfo.map fun info => (partition ':' info).1

def password : Option (List Char) := u.userinfo.bind fun info => if ':' ∈ info then some (partition ':' info).2 else none

/-- The host as it is written, and the text of the port. -/
def hostPort : List Char × List Char :=
  if '[' ∈ u.hostinfo then
    let bracketed := partition ']' (partition '[' u.hostinfo).2
    (bracketed.1, (partition ':' bracketed.2).2)
  else partition ':' u.hostinfo

/-- A host in small letters. The zone of an address is left as it is. -/
def smallHost (lib : UrlLibrary) (host : List Char) : List Char :=
  lib.lower (host.takeWhile (· ≠ '%')) ++ host.dropWhile (· ≠ '%')

def hostname (lib : UrlLibrary) : Option (List Char) :=
  if u.hostPort.1 = [] then none else some (smallHost lib u.hostPort.1)

/-- The port, or `none` where its text is no port. -/
def port : Option (Option Nat) :=
  let text := u.hostPort.2
  if text = [] then some none
  else if text.all Char.isDigit then
    let value := Nat.ofDigitChars 10 text 0
    if value ≤ 65535 then some (some value) else none
  else none

end SplitUrl

/-! ## The endpoint -/

def defaultPort : Nat := 5432

def schemeText : List Char :=
  ['p', 'o', 's', 't', 'g', 'r', 'e', 's', 'q', 'l', '+', 'p', 's', 'y', 'c', 'o', 'p', 'g']

def postgres : List Char := ['p', 'o', 's', 't', 'g', 'r', 'e', 's']

def defaultName : List Char := ['n', 'e', 'x', 'a', 'h', 'r']

def localhost : List Char := ['l', 'o', 'c', 'a', 'l', 'h', 'o', 's', 't']

structure Endpoint where
  user : List Char := defaultName
  password : List Char := []
  host : List Char := localhost
  port : Nat := defaultPort
  name : List Char := defaultName
  deriving DecidableEq

/-- `text or default`. -/
def orElse (text default : List Char) : List Char := if text = [] then default else text

namespace Endpoint

/-- User, password, host and port as they are written. -/
def netloc (e : Endpoint) : List Char :=
  quote e.user ++ (if e.password = [] then [] else ':' :: quote e.password) ++
    '@' :: (e.host ++ ':' :: Nat.toDigits 10 e.port)

def url (e : Endpoint) : List Char := schemeText ++ ':' :: '/' :: '/' :: (e.netloc ++ '/' :: quote e.name)

/-- `none` where the text is no address of PostgreSQL. The other branch of the source's test, `postgresql`, begins
with this one. -/
def parse (lib : UrlLibrary) (url : List Char) : Except UrlError (Option Endpoint) :=
  if url = [] ∨ ¬[':', '/', '/'] <:+: url then .ok none
  else do
    let parts ← urlsplit lib url
    if ¬postgres <+: parts.scheme then pure none
    else match parts.port with
      | none => pure none
      | some port =>
        let number := port.getD 0
        pure (some
          { user := unquote (orElse (parts.username.getD []) defaultName)
            password := unquote (parts.password.getD [])
            host := orElse ((parts.hostname lib).getD []) localhost
            port := if number = 0 then defaultPort else number
            name := orElse (unquote (parts.path.dropWhile (· = '/'))) defaultName })

def withName (e : Endpoint) (name : List Char) : Endpoint := { e with name := trim isSpace name }

end Endpoint

/-- What follows the `?` of an address. -/
def connectionOptions (lib : UrlLibrary) (url : List Char) : List Char :=
  match urlsplit lib url with
  | .ok parts => parts.query
  | .error _ => []

/-! ## The settings file -/

/-- The key and the value of a line. A comment and a line without `=` have none. -/
def keyValue (line : List Char) : Option (List Char × List Char) :=
  let bare := trim isSpace line
  if ['#'] <+: bare then none
  else if '=' ∈ bare then some (trim isSpace (partition '=' bare).1, trim isSpace (partition '=' bare).2)
  else none

def hasKey (key line : List Char) : Bool := (keyValue line).any fun found => found.1 = key

/-- The value at the first line with the key. -/
def valueAt (key : List Char) : List (List Char) → List Char
  | [] => []
  | line :: lines => if hasKey key line then ((keyValue line).map Prod.snd).getD [] else valueAt key lines

def readSetting (text key : List Char) : List Char := valueAt key (splitLines isLineBreak text)

/-- The first line with the key is replaced, or one is added. -/
def setLine (key value : List Char) : List (List Char) → List (List Char)
  | [] => [key ++ '=' :: value]
  | line :: lines =>
    if hasKey key line then (key ++ '=' :: value) :: lines else line :: setLine key value lines

def writeSetting (text key value : List Char) : List Char :=
  ['\n'].intercalate (setLine key value (splitLines isLineBreak text)) ++ ['\n']

def databaseUrl : List Char := ['D', 'A', 'T', 'A', 'B', 'A', 'S', 'E', '_', 'U', 'R', 'L']

def currentEndpoint (lib : UrlLibrary) (text : List Char) : Except UrlError Endpoint := do
  let found ← Endpoint.parse lib (readSetting text databaseUrl)
  pure (found.getD {})

def applyEndpoint (text : List Char) (e : Endpoint) : List Char := writeSetting text databaseUrl e.url

/-! ## The reachability check -/

/-- The zeros of the decimal digits of all scripts. -/
def zeroDigits : List Nat :=
  [0x30, 0x660, 0x6f0, 0x7c0, 0x966, 0x9e6, 0xa66, 0xae6, 0xb66, 0xbe6, 0xc66, 0xce6, 0xd66, 0xde6, 0xe50, 0xed0, 0xf20,
    0x1040, 0x1090, 0x17e0, 0x1810, 0x1946, 0x19d0, 0x1a80, 0x1a90, 0x1b50, 0x1bb0, 0x1c40, 0x1c50, 0xa620, 0xa8d0,
    0xa900, 0xa9d0, 0xa9f0, 0xaa50, 0xabf0, 0xff10, 0x104a0, 0x10d30, 0x11066, 0x110f0, 0x11136, 0x111d0, 0x112f0,
    0x11450, 0x114d0, 0x11650, 0x116c0, 0x11730, 0x118e0, 0x11950, 0x11c50, 0x11d50, 0x11da0, 0x16a60, 0x16ac0,
    0x16b50, 0x1d7ce, 0x1d7d8, 0x1d7e2, 0x1d7ec, 0x1d7f6, 0x1e140, 0x1e2f0, 0x1e950, 0x1fbf0]

/-- `\d`, with the value of the digit. -/
def digitOf (c : Char) : Option Nat :=
  (zeroDigits.find? fun first => first ≤ c.toNat && c.toNat ≤ first + 9).map fun first => c.toNat - first

def isAnyDigit (c : Char) : Bool := (digitOf c).isSome

def digitsValue (l : List Char) : Nat := l.foldl (fun value c => 10 * value + (digitOf c).getD 0) 0

/-- `\s*DATABASE_URL\s*=\s*(\S+)` at the beginning of a text. -/
def settingHere (text : List Char) : Option (List Char) :=
  let start := text.dropWhile isSpace
  if databaseUrl <+: start then
    match (start.drop databaseUrl.length).dropWhile isSpace with
    | '=' :: rest =>
      let word := (rest.dropWhile isSpace).takeWhile fun c => !isSpace c
      if word = [] then none else some word
    | _ => none
  else none

/-- The first word that stands behind the key, where `start` says whether a line begins here. -/
def settingWord : Bool → List Char → Option (List Char)
  | _, [] => none
  | start, c :: rest => (if start then settingHere (c :: rest) else none).or (settingWord (c = '\n') rest)

def isHostChar (c : Char) : Bool := c ≠ '/' && c ≠ ':' && c ≠ '@'

/-- `@([^/:@]+)(?::(\d+))?/` at the beginning of a text. -/
def hostPortHere : List Char → Option (List Char × Nat)
  | '@' :: rest =>
    let host := rest.takeWhile isHostChar
    if host = [] then none
    else match rest.dropWhile isHostChar with
      | '/' :: _ => some (host, defaultPort)
      | ':' :: after =>
        let digits := after.takeWhile isAnyDigit
        if digits ≠ [] ∧ ['/'] <+: after.dropWhile isAnyDigit then some (host, digitsValue digits) else none
      | _ => none
  | _ => none

def hostPortIn : List Char → Option (List Char × Nat)
  | [] => none
  | c :: rest => (hostPortHere (c :: rest)).or (hostPortIn rest)

def databaseEndpoint (text : List Char) : List Char × Nat :=
  ((settingWord true text).bind hostPortIn).getD (localhost, defaultPort)

end NexaHR
