import Operant.Text.Pattern
import Operant.Python.Value

/-! What is taken out of texts and payloads before they are stored or shown: `protocol.py`. -/
namespace Operant.Security
open Operant.Text Operant.Python

/-- The interpreter's tables: character classes, case, and how a finite float is written. -/
structure Interpreter where
  isWord : Char → Bool
  isSpace : Char → Bool
  /-- What a pattern that ignores case compares. -/
  fold : Char → Char
  lower : Char → List Char
  floatRepr : ℚ → String
  lower_letter : ∀ c : Char, 'a' ≤ c → c ≤ 'z' → lower c = [c]

namespace Interpreter
variable (py : Interpreter)

/-! ### Patterns -/

def same (c d : Char) : Bool := py.fold c = py.fold d

/-- A text, its case ignored. -/
def text (s : String) : Pattern := Pattern.text py.same s

/-- A class of characters, their case ignored. -/
def within (p : Char → Bool) (c : Char) : Bool := p c || p (py.fold c)

end Interpreter

def isLetter (c : Char) : Bool := ('a' ≤ c && c ≤ 'z') || ('A' ≤ c && c ≤ 'Z')
def isDigit (c : Char) : Bool := '0' ≤ c && c ≤ '9'
def oneOf (s : String) (c : Char) : Bool := c ∈ s.toList

namespace Interpreter
variable (py : Interpreter)

def spaces : Pattern := .many py.isSpace 0 none true
def quote : Pattern := .char (oneOf "\"'")

/-- A word and another one, with `_` or `-` in between or not. -/
def joined (a b : String) : Pattern :=
  .all [py.text a, .many (oneOf "_-") 0 (some 1) true, py.text b]

/-- `_SECRET_KEY_SUFFIX_PATTERN`. -/
def secretKeySuffix : Pattern :=
  .any (py.joined "api" "key") [py.joined "access" "token", py.joined "refresh" "token",
    py.joined "client" "secret", py.text "password", py.text "passwd", py.text "authorization",
    py.text "cookie", py.joined "private" "key", py.text "token", py.text "secret"]

/-- `_SECRET_KEY_PATTERN`. -/
def secretKey : Pattern :=
  .alt py.secretKeySuffix (.all [.char (py.within fun c => isLetter c || c = '_'),
    .many (py.within fun c => isLetter c || isDigit c || oneOf "_-" c) 1 none true, py.secretKeySuffix])

def boundary : Pattern := .boundary py.isWord

/-- `_BEARER_PATTERN`. -/
def bearer : Pattern :=
  .all [py.boundary, py.text "bearer", .many (oneOf " \t") 1 none true,
    .many (fun c => !(py.isSpace c || oneOf "\\\"'" c)) 1 none true]

/-- `_BASIC_PATTERN`. -/
def basic : Pattern :=
  .all [py.boundary, py.text "basic", .many py.isSpace 1 none true,
    .many (py.within fun c => isLetter c || isDigit c || oneOf "+/" c) 4 none true,
    .many (oneOf "=") 0 (some 2) true]

/-- `_URL_USERINFO_PATTERN`. -/
def urlUserinfo : Pattern :=
  .all [.group 1 (.all [py.boundary, .char (py.within isLetter),
      .many (py.within fun c => isLetter c || isDigit c || oneOf "+.-" c) 0 none true, py.text "://"]),
    .group 2 (.all [.many (fun c => !(py.isSpace c || oneOf "/@" c)) 1 none true, .char (oneOf "@")])]

/-- `.*?` as group 4, and the quotation mark of group 3 again. -/
def quoted : Pattern :=
  .all [.group 4 (.many (fun c => c ≠ '\n') 0 none false), .again 3]

/-- `_JSON_SECRET_PATTERN`. -/
def jsonSecret : Pattern :=
  .all [.group 1 (.all [quote, .group 2 py.secretKey, quote, py.spaces, .char (oneOf ":"), py.spaces]),
    .group 3 quote, quoted]

/-- The beginning of `_QUOTED_SECRET_PATTERN` and of `_UNQUOTED_SECRET_PATTERN`. -/
def assigned : Pattern :=
  .all [py.boundary, .group 1 py.secretKey, py.boundary,
    .group 2 (.all [py.spaces, .char (oneOf "=:"), py.spaces])]

/-- `_QUOTED_SECRET_PATTERN`. -/
def quotedSecret : Pattern := .all [py.assigned, .group 3 quote, quoted]

/-- `_UNQUOTED_SECRET_PATTERN`. -/
def unquotedSecret : Pattern :=
  .all [py.assigned, .group 3 (.many (fun c => !(py.isSpace c || oneOf ",;]\x7d'\"" c)) 1 none true)]

/-- `_STANDALONE_SECRET_PATTERNS`. -/
def standaloneSecrets : List Pattern :=
  [.all [py.boundary, .text (· = ·) "sk-",
      .many (fun c => isLetter c || isDigit c || oneOf "_-" c) 16 none true],
    .all [py.boundary, .text (· = ·) "AKIA",
      .many (fun c => isDigit c || ('A' ≤ c && c ≤ 'Z')) 16 (some 16) true, py.boundary],
    .all [py.boundary, .text (· = ·) "gh", .char (oneOf "pousr"), .text (· = ·) "_",
      .many (fun c => isLetter c || isDigit c) 20 none true, py.boundary]]

def redacted : List Char := "[REDACTED]".toList

/-- The patterns of `redact_public_text` in their order, and what each match becomes. -/
def rules : List (Pattern × (Place → List Char)) :=
  [(py.bearer, fun _ => "Bearer ".toList ++ redacted),
    (py.basic, fun _ => "Basic ".toList ++ redacted),
    (py.urlUserinfo, fun s => s.group 1 ++ redacted ++ ['@']),
    (py.jsonSecret, fun s => s.group 1 ++ s.group 3 ++ redacted ++ s.group 3),
    (py.quotedSecret, fun s => s.group 1 ++ s.group 2 ++ s.group 3 ++ redacted ++ s.group 3),
    (py.unquotedSecret, fun s => s.group 1 ++ s.group 2 ++ redacted)] ++
    py.standaloneSecrets.map fun a => (a, fun _ => redacted)

/-! ### Private keys -/

/-- The text before the first occurrence, the occurrence, and the text after it; case is ignored. -/
def cut (word : List Char) : List Char → Option (List Char × List Char × List Char)
  | [] => none
  | c :: rest =>
    if word.length ≤ (c :: rest).length ∧ (List.zip word (c :: rest)).all fun x => py.same x.1 x.2 then
      some ([], (c :: rest).take word.length, (c :: rest).drop word.length)
    else (cut word rest).map fun found => (c :: found.1, found.2)

/-- The rest of the line, and what follows it: `_pem_line_end`. -/
def line (s : List Char) : List Char × List Char := s.span fun c => c ≠ '\r' ∧ c ≠ '\n'

/-- `PRIVATE KEY-----` in a line: what comes after it. -/
def pemKey (s : List Char) : Option (List Char) :=
  (py.cut "PRIVATE KEY-----".toList (line s).1).map fun found => found.2.2 ++ (line s).2

/-- What comes after the end of a block that has begun. `n` is more than the length of the text. -/
def pemEnd : Nat → List Char → List Char
  | 0, _ => []
  | n + 1, s => match py.cut "-----END ".toList s with
    | none => []
    | some (_, _, after) => match py.pemKey after with
      | some rest => rest
      | none => pemEnd n (line after).2

/-- `_redact_private_keys` from the cursor on. -/
def redactPrivateKeysFrom : Nat → List Char → List Char
  | 0, s => s
  | n + 1, s => match py.cut "-----BEGIN ".toList s with
    | none => s
    | some (front, header, after) => match py.pemKey after with
      | none => front ++ header ++ (line after).1 ++ redactPrivateKeysFrom n (line after).2
      | some rest =>
        front ++ "[REDACTED PRIVATE KEY]".toList ++
          redactPrivateKeysFrom n (py.pemEnd (rest.length + 1) rest)

/-- `_redact_private_keys`. -/
def redactPrivateKeys (s : List Char) : List Char := py.redactPrivateKeysFrom (s.length + 1) s

/-! ### Texts -/

def redactSecrets (s : List Char) : List Char :=
  py.rules.foldl (fun s rule => rule.1.sub rule.2 s) (py.redactPrivateKeys s)

/-- `redact_public_text`. -/
def redactPublicText (maxChars : Nat) (value : String) : String :=
  let s := py.redactSecrets value.toList
  if s.length ≤ maxChars then .ofList s else .ofList (s.take maxChars ++ "...[truncated]".toList)

/-! ### Keys -/

def sensitiveKeySuffixes : List String :=
  ["api_key", "apikey", "access_token", "refresh_token", "token", "password", "passwd", "authorization",
    "cookie", "private_key", "client_secret", "secret"]

/-- `_SENSITIVE_KEY_NAMES`, the same names. -/
def sensitiveKeyNames : List String :=
  ["api_key", "apikey", "client_secret", "access_token", "refresh_token", "token", "password", "passwd",
    "authorization", "cookie", "private_key", "secret"]

def isKeyChar (c : Char) : Bool := ('a' ≤ c && c ≤ 'z') || isDigit c

/-- `re.sub(r"[^a-z0-9]+", "_", s)`. -/
def underscored : List Char → List Char
  | [] => []
  | c :: rest =>
    if isKeyChar c then c :: underscored rest
    else match rest with
      | [] => ['_']
      | d :: _ => if isKeyChar d then '_' :: underscored rest else underscored rest

/-- `s.strip("_")`. -/
def stripped (s : List Char) : List Char :=
  ((s.dropWhile (· = '_')).reverse.dropWhile (· = '_')).reverse

/-- `is_sensitive_key`. -/
def isSensitiveKey (key : String) : Bool :=
  let normalized := stripped (underscored (key.toList.flatMap py.lower))
  if normalized = "secret_ref".toList then false
  else
    let compact := normalized.filter (· ≠ '_')
    sensitiveKeyNames.any (fun name => normalized = name.toList) ||
      sensitiveKeySuffixes.any fun suffix =>
        normalized = suffix.toList || ('_' :: suffix.toList).isSuffixOf normalized ||
          (suffix.toList.filter (· ≠ '_')).isSuffixOf compact

/-! ### Payloads -/

theorem maxBytes_pos : 1 ≤ 100000 := by decide
theorem maxItems_pos : 1 ≤ 200 := by decide

/-- The bounds of `redact_public_data`. -/
structure Bounds where
  maxChars : Nat := 20000
  maxBytes : Nat := 100000
  maxDepth : Nat := 12
  maxItems : Nat := 200
  bytes_pos : 1 ≤ maxBytes := by first | exact Operant.Security.Interpreter.maxBytes_pos | decide
  items_pos : 1 ≤ maxItems := by first | exact Operant.Security.Interpreter.maxItems_pos | decide

variable (b : Bounds)

mutual
/-- `_bounded_public_data`, with the items that remain. Objects are made texts before. -/
def boundedPublicData : Value → Nat → Nat → Value × Nat
  | value, depth, left =>
    if b.maxDepth < depth then (.str "[truncated: maximum depth]", left)
    else match value with
      | .str s => (.str (py.redactPublicText b.maxChars s), left)
      | .dict items =>
        let sanitized := boundedItems items (depth + 1) [] left
        (.dict sanitized.1, sanitized.2)
      | .list xs =>
        let sanitized := boundedList xs (depth + 1) left
        (.list sanitized.1, sanitized.2)
      | .null => (.null, left)
      | .bool x => (.bool x, left)
      | .int n => (.int n, left)
      | .float x => (.float x, left)
      | .foreign => (.foreign, left)

def boundedItems : List (String × Value) → Nat → Refs → Nat → Refs × Nat
  | [], _, sanitized, left => (sanitized, left)
  | (key, item) :: rest, depth, sanitized, left =>
    if left = 0 then (sanitized.set "_truncated_items" (.bool true), left)
    else
      let safeKey := py.redactPublicText 500 key
      if py.isSensitiveKey safeKey then
        boundedItems rest depth (sanitized.set safeKey (.str "[REDACTED]")) (left - 1)
      else
        let value := boundedPublicData item depth (left - 1)
        boundedItems rest depth (sanitized.set safeKey value.1) value.2

def boundedList : List Value → Nat → Nat → List Value × Nat
  | [], _, left => ([], left)
  | item :: rest, depth, left =>
    if left = 0 then ([.str "[truncated items]"], left)
    else
      let value := boundedPublicData item depth (left - 1)
      let sanitized := boundedList rest depth value.2
      (value.1 :: sanitized.1, sanitized.2)
end

/-- `s` as a JSON string that need not be ASCII. -/
def dumpsStr (s : String) : List Char :=
  '"' :: s.toList.flatMap (fun c =>
    if c = '"' then "\\\"".toList
    else if c = '\\' then "\\\\".toList
    else if c = '\n' then "\\n".toList
    else if c = '\r' then "\\r".toList
    else if c = '\t' then "\\t".toList
    else if c = '\x08' then "\\b".toList
    else if c = '\x0c' then "\\f".toList
    else if c.toNat < 0x20 then
      "\\u00".toList ++ [Nat.digitChar (c.toNat / 16), Nat.digitChar (c.toNat % 16)]
    else [c]) ++ ['"']

mutual
/-- `json.dumps` without spaces. Floats that are not finite have no JSON. -/
def dumps : Value → Option (List Char)
  | .null => some "null".toList
  | .bool x => some (if x then "true".toList else "false".toList)
  | .int n => some (toString n).toList
  | .float (.finite q) => some (py.floatRepr q).toList
  | .float _ => none
  | .str s => some (dumpsStr s)
  | .list xs => (dumpsList xs).map fun parts => '[' :: [','].intercalate parts ++ [']']
  | .dict items => (dumpsItems items).map fun parts => '{' :: [','].intercalate parts ++ ['}']
  | .foreign => none

def dumpsList : List Value → Option (List (List Char))
  | [] => some []
  | x :: rest => (dumps x).bind fun part => (dumpsList rest).map (part :: ·)

def dumpsItems : List (String × Value) → Option (List (List Char))
  | [] => some []
  | (key, x) :: rest => (dumps x).bind fun part =>
    (dumpsItems rest).map ((dumpsStr key ++ ':' :: part) :: ·)
end

/-- The bytes of the JSON, if there is one. -/
def jsonBytes (value : Value) : Option Nat := (py.dumps value).map fun s => (String.ofList s).utf8ByteSize

/-- What stands for a payload that is too large, from the longest marker to the shortest. -/
def truncationMarkers : Value → List Value
  | .dict _ => [.dict [("_truncated", .bool true), ("_reason", .str "public payload exceeded byte limit")],
      .dict [("_truncated", .bool true)], .dict [], .int 0]
  | .list _ => [.list [.str "[truncated: public payload exceeded byte limit]"],
      .list [.str "[truncated]"], .list [], .int 0]
  | _ => [.str "[truncated: public payload exceeded byte limit]", .str "[truncated]", .str "", .int 0]

def unserializable : Value := .str "[redacted: unserializable public payload]"

/-- A payload and its bytes. -/
def serialized (sanitized : Value) : Value × Nat :=
  match py.jsonBytes sanitized with
  | some n => (sanitized, n)
  | none => (unserializable, (py.jsonBytes unserializable).getD 0)

/-- `redact_public_data`. The last marker always fits. -/
def redactPublicData (value : Value) : Value :=
  let (sanitized, size) := py.serialized (py.boundedPublicData b value 0 b.maxItems).1
  if size ≤ b.maxBytes then sanitized
  else ((truncationMarkers sanitized).find? fun marker =>
    (py.jsonBytes marker).any (· ≤ b.maxBytes)).getD (.int 0)

end Interpreter
end Operant.Security
