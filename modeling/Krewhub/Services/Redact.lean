import Krewhub.Python.Json
import Krewhub.Python.Re

/-!
# Redaction on ingestion

`services/redact`: nine patterns, replaced one after another in a text, and the walk over a JSON value that
replaces what stands under a telling key. Of the nine, five are replaced whole and four keep a label.

A pattern is clean of once it has been replaced, and the later ones keep it so, but for the last: it takes
forty characters, and where more follow, what follows stands behind a boundary for the first time. A text
without such a run comes out with no secret of any pattern.
-/

namespace Krewhub.Redact

open Re
open Text (isSpace)

variable (wide : Char → Bool)

/-! ### The patterns -/

/-- `[REDACTED]`. -/
def redacted : Marker Char := ⟨'[', ['R', 'E', 'D', 'A', 'C', 'T', 'E', 'D'], ']'⟩

def letters : List (Char × Char) := [('A', 'Z'), ('a', 'z'), ('0', '9')]

def base64url : List (Char × Char) := letters ++ [('_', '_'), ('-', '-')]

def bearerChars : List (Char × Char) := letters ++ [('_', '_'), ('.', '.'), ('-', '-'), ('~', '~'), ('+', '+'), ('/', '/')]

def awsSecretChars : List (Char × Char) := letters ++ [('/', '/'), ('+', '+'), ('=', '=')]

/-- `\s*[:=]\s*`. -/
def assigns : Regex Char := .seq spaces (.seq (.one (cls [(':', ':'), ('=', '=')])) spaces)

def ethPrivkey : Pattern Char where
  lead := true
  label := .empty
  gap := .empty
  secret := .seq (lit ['0', 'x']) (.many (cls [('a', 'f'), ('A', 'F'), ('0', '9')]) 64 (some 64))
  trail := true

def jwt : Pattern Char where
  lead := true
  label := .empty
  gap := .empty
  secret := .seq (lit ['e', 'y', 'J']) (.seq (.many (cls base64url) 10 none) (.seq (lit ['.'])
    (.seq (.many (cls base64url) 10 none) (.seq (lit ['.']) (.many (cls base64url) 10 none)))))
  trail := true

def githubToken : Pattern Char where
  lead := true
  label := .empty
  gap := .empty
  secret := .seq (lit ['g', 'h']) (.seq
    (.one (cls [('p', 'p'), ('o', 'o'), ('u', 'u'), ('s', 's'), ('r', 'r')]))
    (.seq (lit ['_']) (.many (cls letters) 36 none)))
  trail := true

def awsAccessKey : Pattern Char where
  lead := true
  label := .empty
  gap := .empty
  secret := .seq (lit ['A', 'K', 'I', 'A']) (.many (cls [('0', '9'), ('A', 'Z')]) 16 (some 16))
  trail := true

def openaiKey : Pattern Char where
  lead := true
  label := .empty
  gap := .empty
  secret := .seq (lit ['s', 'k', '-']) (.many (cls base64url) 20 none)
  trail := true

def bearer : Pattern Char where
  lead := true
  label := .seq (litI ['b', 'e', 'a', 'r', 'e', 'r']) (.many isSpace 1 none)
  gap := .empty
  secret := .seq (.many (clsI bearerChars) 20 none) (.many (cls [('=', '=')]) 0 (some 2))
  trail := false

def passwordAssign : Pattern Char where
  lead := false
  label := .seq (litI ['p', 'a', 's', 's', 'w', 'o', 'r', 'd']) assigns
  gap := .empty
  secret := value
  trail := false

/-- The gap between the name and the value goes with the value. -/
def envSecret : Pattern Char where
  lead := true
  label := .seq (.one (clsI [('A', 'Z')])) (.seq (.many (clsI [('A', 'Z'), ('0', '9'), ('_', '_')]) 0 none)
    (.alt (litI ['_', 'k', 'e', 'y']) (.alt (litI ['_', 's', 'e', 'c', 'r', 'e', 't'])
      (.alt (litI ['_', 't', 'o', 'k', 'e', 'n']) (litI ['_', 'p', 'a', 's', 's', 'w', 'o', 'r', 'd'])))))
  gap := .seq spaces (.seq (lit ['=']) spaces)
  secret := value
  trail := false

def awsSecret : Pattern Char where
  lead := false
  label := .seq (litI ['s', 'e', 'c', 'r', 'e', 't']) assigns
  gap := .empty
  secret := .many (clsI awsSecretChars) 40 (some 40)
  trail := false

/-- `_TEXT_PATTERNS`. -/
def textPatterns : List (String × Pattern Char) :=
  [("eth_privkey", ethPrivkey), ("jwt", jwt), ("github_token", githubToken), ("aws_access_key", awsAccessKey),
    ("openai_key", openaiKey), ("bearer", bearer), ("password_assign", passwordAssign),
    ("env_secret", envSecret), ("aws_secret", awsSecret)]

/-! ### Texts and values -/

def redactChars (s : List Char) : List Char :=
  textPatterns.foldl (fun out pattern => pattern.2.sub (isWord wide) redacted out) s

def redactText (value : String) : String := String.ofList (redactChars wide value.toList)

/-- Substrings of a key that tell of a secret. -/
def sensitiveKeySubstrings : List String :=
  ["password", "secret", "token", "api_key", "apikey", "private_key", "privatekey", "priv_key", "privkey",
    "auth", "credential", "passphrase"]

def keyAllowlist : List String :=
  ["auth_method", "auth_type", "authentication_type", "token_type", "public_key", "publickey"]

/-- Of `key.lower()` the letters the substrings are made of. -/
def lowerKey (key : String) : List Char :=
  key.toList.map fun c => if c.toNat = 0x212a then 'k' else c.toLower

def keyIsSensitive (key : String) : Bool :=
  !(keyAllowlist.any fun allowed => decide (allowed.toList <:+: lowerKey key)) &&
    sensitiveKeySubstrings.any fun sensitive => decide (sensitive.toList <:+: lowerKey key)

mutual

def redactJson : Json → Json
  | .dict entries => .dict (redactEntries entries)
  | .list items => .list (redactItems items)
  | .str s => .str (redactText wide s)
  | other => other

def redactItems : List Json → List Json
  | [] => []
  | item :: items => redactJson item :: redactItems items

def redactEntries : List (String × Json) → List (String × Json)
  | [] => []
  | (key, value) :: entries =>
    (key, if keyIsSensitive key then .str (String.ofList redacted.text) else redactJson value) ::
      redactEntries entries

end

end Krewhub.Redact
