import LmmApi.Lib.GoText

/-!
# URLs in Go

`net/url`'s `Parse`, as far as its scheme, host name and path: the fragment is cut off, a scheme is
split off, the query is cut off, the authority is separated from the path, user information, port
and host are checked, and percent escapes are decoded. The path is decoded byte by byte and read
back as UTF-8, an invalid byte becoming the replacement character.
-/

namespace LmmApi.Go

/-! ## Bytes and runes -/

variable (l : List Char)

/-- The bytes of a string. -/
def toBytes : List ℕ := l.flatMap fun c => (String.utf8EncodeChar c).map UInt8.toNat

/-- A continuation byte. -/
def isCont (b : ℕ) : Bool := 0x80 ≤ b ∧ b < 0xC0

/-- `utf8.DecodeRune`: the rune that starts with the byte `b₀` and how many of the bytes after it
belong to it. An invalid byte is the replacement character. -/
def decodeRune (b₀ : ℕ) (rest : List ℕ) : Char × ℕ :=
  let b₁ := rest.getD 0 0
  let b₂ := rest.getD 1 0
  let b₃ := rest.getD 2 0
  let n₃ := (b₀ - 0xE0) * 4096 + (b₁ - 0x80) * 64 + (b₂ - 0x80)
  let n₄ := (b₀ - 0xF0) * 262144 + (b₁ - 0x80) * 4096 + (b₂ - 0x80) * 64 + (b₃ - 0x80)
  if b₀ < 0x80 then (Char.ofNat b₀, 0)
  else if 0xC2 ≤ b₀ ∧ b₀ < 0xE0 ∧ isCont b₁ then
    (Char.ofNat ((b₀ - 0xC0) * 64 + (b₁ - 0x80)), 1)
  else if 0xE0 ≤ b₀ ∧ b₀ < 0xF0 ∧ isCont b₁ ∧ isCont b₂ ∧ 0x800 ≤ n₃ ∧
      ¬(0xD800 ≤ n₃ ∧ n₃ < 0xE000) then
    (Char.ofNat n₃, 2)
  else if 0xF0 ≤ b₀ ∧ b₀ < 0xF5 ∧ isCont b₁ ∧ isCont b₂ ∧ isCont b₃ ∧ 0x10000 ≤ n₄ ∧
      n₄ < 0x110000 then
    (Char.ofNat n₄, 3)
  else ('\uFFFD', 0)

/-- The runes of a byte string after `skip` bytes that are already read. -/
def decodeRunes : ℕ → List ℕ → List Char
  | _, [] => []
  | skip + 1, _ :: rest => decodeRunes skip rest
  | 0, b :: rest => (decodeRune b rest).1 :: decodeRunes (decodeRune b rest).2 rest

/-- The value of a hexadecimal digit, given by its byte. -/
def unhex (b : ℕ) : Option ℕ :=
  if 48 ≤ b ∧ b ≤ 57 then some (b - 48)
  else if 97 ≤ b ∧ b ≤ 102 then some (b - 87)
  else if 65 ≤ b ∧ b ≤ 70 then some (b - 55)
  else none

/-- Decode percent escapes. `literal` says which bytes may stand for themselves and `escaped`
which bytes may be written as an escape. -/
def unescape (literal escaped : ℕ → Bool) : List ℕ → Option (List ℕ)
  | [] => some []
  | 37 :: h :: l :: rest => do
    let v := 16 * (← unhex h) + (← unhex l)
    if escaped v then return v :: (← unescape literal escaped rest) else none
  | 37 :: _ => none
  | b :: rest => if literal b then do return b :: (← unescape literal escaped rest) else none

/-- Decode the escapes of a path, a fragment or user information. -/
def unescapeAny : Option (List Char) :=
  (unescape (fun _ => true) (fun _ => true) (toBytes l)).map (decodeRunes 0)

/-- The ASCII bytes that stand for themselves in a host. -/
def isHostByte (b : ℕ) : Bool :=
  let c := Char.ofNat b
  isAlnum c || c ∈ ['-', '_', '.', '~', '!', '$', '&', '\'', '(', ')', '*', '+', ',', ';', '=', ':',
    '[', ']', '<', '>', '"']

/-- Decode the escapes of a host, where only bytes that are not ASCII and the percent sign may be
written as one. -/
def unescapeHost : Option (List Char) :=
  (unescape (fun b => 0x80 ≤ b || isHostByte b) (fun v => 0x80 ≤ v || v = 37) (toBytes l)).map
    (decodeRunes 0)

/-! ## The parser -/

/-- The parts of a URL that are read here. -/
structure Url where
  scheme : String
  host : String
  path : String
  deriving DecidableEq

/-- Split at the first occurrence of `c`, which is dropped. -/
def cut (c : Char) (l : List Char) : List Char × Option (List Char) :=
  match l.dropWhile (· ≠ c) with
  | [] => (l, none)
  | _ :: after => (l.takeWhile (· ≠ c), some after)

/-- Split at the last occurrence of `c`, which is dropped. -/
def cutLast (c : Char) (l : List Char) : Option (List Char × List Char) :=
  match cut c l.reverse with
  | (_, none) => none
  | (after, some before) => some (before.reverse, after.reverse)

/-- `getScheme`: the scheme, empty if there is none, and the rest; `none` for a missing scheme. -/
def getScheme (raw : List Char) : Option (List Char × List Char) :=
  let isSchemeChar := fun c : Char => isAlnum c || c = '+' || c = '-' || c = '.'
  match raw.takeWhile isSchemeChar, raw.dropWhile isSchemeChar with
  | [], ':' :: _ => none
  | c :: cs, ':' :: rest => some (if c.isAlpha then (c :: cs, rest) else ([], raw))
  | _, _ => some ([], raw)

/-- `validOptionalPort`: nothing, or a colon and digits. -/
def validOptionalPort : List Char → Bool
  | [] => true
  | c :: digits => c = ':' && digits.all Char.isDigit

def validUserinfo : Bool :=
  l.all fun c => isAlnum c ||
    c ∈ ['-', '.', '_', ':', '~', '!', '$', '&', '\'', '(', ')', '*', '+', ',', ';', '=', '%', '@']

def parseHost (host : List Char) : Option (List Char) :=
  if host.head? = some '[' then
    match cutLast ']' host with
    | none => none
    | some (_, colonPort) => if validOptionalPort colonPort then unescapeHost host else none
  else match cutLast ':' host with
    | none => unescapeHost host
    | some (_, port) => if port.all Char.isDigit then unescapeHost host else none

/-- `parseAuthority`: the host with its port. -/
def parseAuthority (authority : List Char) : Option (List Char) :=
  match cutLast '@' authority with
  | none => parseHost authority
  | some (userinfo, host) => do
    let host ← parseHost host
    if validUserinfo userinfo then
      let _ ← unescapeAny userinfo
      return host
    else none

/-- `URL.Hostname`: the host without its port and without the brackets of an IP literal. -/
def hostname (host : List Char) : List Char :=
  let host := match cutLast ':' host with
    | some (name, port) => if port.all Char.isDigit then name else host
    | none => host
  if host.head? = some '[' ∧ host.getLast? = some ']' then host.tail.dropLast else host

/-- `parse`, on a URL without a fragment. -/
def parseUrl (raw : List Char) : Option Url := do
  if raw.any fun c => c.toNat < 0x20 || c.toNat = 0x7F then none
  else if raw = ['*'] then return ⟨"", "", "*"⟩
  else
    let (scheme, rest) ← getScheme raw
    let rest := (cut '?' rest).1
    if rest.head? ≠ some '/' ∧ scheme ≠ [] then
      -- an opaque URL has neither host nor path
      return ⟨String.ofList (scheme.map Char.toLower), "", ""⟩
    else if rest.head? ≠ some '/' ∧ ':' ∈ (cut '/' rest).1 then none
    else
      let (host, rest) ← match rest with
        | '/' :: '/' :: authority =>
          if scheme = [] ∧ authority.head? = some '/' then some ([], rest)
          else
            (parseAuthority (authority.takeWhile (· ≠ '/'))).map fun host =>
              (host, authority.dropWhile (· ≠ '/'))
        | _ => some ([], rest)
      let path ← unescapeAny rest
      return ⟨String.ofList (scheme.map Char.toLower), String.ofList (hostname host),
        String.ofList path⟩

def urlParse (raw : String) : Option Url := do
  let (raw, fragment) := cut '#' raw.toList
  let url ← parseUrl raw
  let _ ← unescapeAny (fragment.getD [])
  return url

example : urlParse "https://user@GitHub.com:443/a%2Fb/pull/1?x=1#top" =
    some ⟨"https", "GitHub.com", "/a/b/pull/1"⟩ := by decide +kernel

end LmmApi.Go
