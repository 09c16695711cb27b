import LmmApi.Lib.GoText

/-!
# JSON in Go

`json.Marshal` and `json.Unmarshal` for the values that structs of booleans, integers, strings and
further structs are encoded as. `Json.encode` writes the compact text of the package, with its
escapes: quotes, backslashes and control characters, the HTML characters, and the two line
separators of JavaScript. `Json.decode` reads such texts back; white space between tokens, arrays,
`null` and fractions are not needed for that and are refused.

The main result is the round trip `decode_encode`; that the text determines the value
(`encode_injective`) follows.
-/

namespace LmmApi.Go

open List Option

/-- A JSON value. -/
inductive Json
  | bool (b : Bool)
  | int (n : ℤ)
  | str (s : String)
  | obj (fields : List (String × Json))

namespace Json

/-! ## Encoding -/

/-- `\uXXXX`. -/
def unicodeEscape (n : ℕ) : List Char :=
  ['\\', 'u', Nat.digitChar (n / 4096 % 16), Nat.digitChar (n / 256 % 16),
    Nat.digitChar (n / 16 % 16), Nat.digitChar (n % 16)]

/-- The characters that are written as `\uXXXX`: the control characters without an escape of their
own, the HTML characters and the line separators. -/
def needsUnicode (c : Char) : Prop :=
  c.toNat < 0x20 ∨ c = '<' ∨ c = '>' ∨ c = '&' ∨ c.toNat = 0x2028 ∨ c.toNat = 0x2029
  deriving Decidable

/-- The letter of a two-character escape. -/
def shortEscape (c : Char) : Option Char :=
  if c = '"' ∨ c = '\\' then some c
  else if c = '\x08' then some 'b'
  else if c = '\x0c' then some 'f'
  else if c = '\n' then some 'n'
  else if c = '\r' then some 'r'
  else if c = '\t' then some 't'
  else none

/-- A character inside a string literal. -/
def escape (c : Char) : List Char :=
  match shortEscape c with
  | some e => ['\\', e]
  | none => if needsUnicode c then unicodeEscape c.toNat else [c]

/-- The rest of a string literal after its opening quote. -/
def quoteTail (s : List Char) : List Char := s.flatMap escape ++ ['"']

/-- An integer literal. -/
def intLiteral (n : ℤ) : List Char :=
  if n < 0 then '-' :: Nat.toDigits 10 n.natAbs else Nat.toDigits 10 n.natAbs

mutual

/-- The characters of `json.Marshal`. -/
def encodeChars : Json → List Char
  | .bool true => ['t', 'r', 'u', 'e']
  | .bool false => ['f', 'a', 'l', 's', 'e']
  | .int n => intLiteral n
  | .str s => '"' :: quoteTail s.toList
  | .obj fields => '\x7b' :: encodeMembers true fields

/-- The members of an object with its closing brace; `first` tells that no member precedes. -/
def encodeMembers (first : Bool) : List (String × Json) → List Char
  | [] => ['\x7d']
  | (key, value) :: fields =>
    (if first then ['"'] else [',', '"']) ++ quoteTail key.toList ++
      ':' :: (encodeChars value ++ encodeMembers false fields)

end

/-- `json.Marshal`. -/
def encode (j : Json) : String := String.ofList j.encodeChars

/-! ## Decoding -/

/-- The value of a hexadecimal digit. -/
def hexVal (c : Char) : Option ℕ :=
  if c.isDigit then some (digitVal c)
  else if 'a' ≤ c ∧ c ≤ 'f' then some (c.toNat - 'a'.toNat + 10)
  else if 'A' ≤ c ∧ c ≤ 'F' then some (c.toNat - 'A'.toNat + 10)
  else none

/-- The character of a two-character escape. -/
def unescape : Char → Option Char
  | '"' => some '"'
  | '\\' => some '\\'
  | '/' => some '/'
  | 'b' => some '\x08'
  | 'f' => some '\x0c'
  | 'n' => some '\n'
  | 'r' => some '\r'
  | 't' => some '\t'
  | _ => none

/-- The character `\uXXXX`; half a surrogate pair is refused. -/
def unescapeUnicode (a b c d : Char) : Option Char := do
  let n := 4096 * (← hexVal a) + 256 * (← hexVal b) + 16 * (← hexVal c) + (← hexVal d)
  if n.isValidChar then some (Char.ofNat n) else none

/-- Adds a character in front of a decoded string. -/
def consChar (c : Option Char) (r : Option (List Char × List Char)) :
    Option (List Char × List Char) := do
  let (s, rest) ← r
  return ((← c) :: s, rest)

/-- Reads a string literal after its opening quote. -/
def unquote : List Char → Option (List Char × List Char)
  | [] => none
  | '"' :: rest => some ([], rest)
  | '\\' :: 'u' :: a :: b :: c :: d :: rest => consChar (unescapeUnicode a b c d) (unquote rest)
  | '\\' :: e :: rest => consChar (unescape e) (unquote rest)
  | c :: rest => consChar (if c.toNat < 0x20 then none else some c) (unquote rest)

/-- Reads the digits at the beginning of a text. -/
def readDigits (l : List Char) : Option (ℕ × List Char) :=
  (parseDigits (l.takeWhile Char.isDigit)).map (·, l.dropWhile Char.isDigit)

/-- Reads an integer literal. -/
def readInt : List Char → Option (ℤ × List Char)
  | '-' :: l => (readDigits l).map fun (n, rest) => (-(n : ℤ), rest)
  | l => (readDigits l).map fun (n, rest) => ((n : ℤ), rest)

mutual

/-- Reads a value; the fuel bounds the number of tokens. -/
def readValue : ℕ → List Char → Option (Json × List Char)
  | 0, _ => none
  | fuel + 1, l => match l with
    | 't' :: 'r' :: 'u' :: 'e' :: rest => some (.bool true, rest)
    | 'f' :: 'a' :: 'l' :: 's' :: 'e' :: rest => some (.bool false, rest)
    | '"' :: rest => (unquote rest).map fun (s, rest) => (.str (String.ofList s), rest)
    | '\x7b' :: rest => (readMembers fuel true rest).map fun (fields, rest) => (.obj fields, rest)
    | l => (readInt l).map fun (n, rest) => (.int n, rest)

/-- Reads the members of an object up to its closing brace. -/
def readMembers : ℕ → Bool → List Char → Option (List (String × Json) × List Char)
  | 0, _, _ => none
  | fuel + 1, first, l => match first, l with
    | _, '\x7d' :: rest => some ([], rest)
    | true, '"' :: rest => readMember fuel rest
    | false, ',' :: '"' :: rest => readMember fuel rest
    | _, _ => none

/-- Reads a member after the opening quote of its key, and the members after it. -/
def readMember : ℕ → List Char → Option (List (String × Json) × List Char)
  | 0, _ => none
  | fuel + 1, l => do
    let (key, rest) ← unquote l
    match rest with
    | ':' :: rest =>
      let (value, rest) ← readValue fuel rest
      let (fields, rest) ← readMembers fuel false rest
      return ((String.ofList key, value) :: fields, rest)
    | _ => none

end

/-- The value a text encodes. -/
def decode (s : String) : Option Json :=
  match readValue (s.toList.length + 1) s.toList with
  | some (j, []) => some j
  | _ => none

/-! ## String literals -/

theorem hexVal_digitChar {d : ℕ} (h : d < 16) : hexVal (Nat.digitChar d) = some d := by
  revert d
  decide

theorem toNat_lt_of_needsUnicode {c : Char} (h : needsUnicode c) : c.toNat < 65536 := by
  rcases h with h | rfl | rfl | rfl | h | h
  · omega
  · decide
  · decide
  · decide
  · omega
  · omega

theorem unescapeUnicode_digits {c : Char} (h : c.toNat < 65536) :
    unescapeUnicode (Nat.digitChar (c.toNat / 4096 % 16)) (Nat.digitChar (c.toNat / 256 % 16))
      (Nat.digitChar (c.toNat / 16 % 16)) (Nat.digitChar (c.toNat % 16)) = some c := by
  have hsum : 4096 * (c.toNat / 4096 % 16) + 256 * (c.toNat / 256 % 16) +
      16 * (c.toNat / 16 % 16) + c.toNat % 16 = c.toNat := by omega
  have hdig : ∀ n : ℕ, hexVal (Nat.digitChar (n % 16)) = some (n % 16) :=
    fun n => hexVal_digitChar (Nat.mod_lt n (by decide))
  simp only [unescapeUnicode, hdig, bind_eq_bind, bind_some, hsum]
  have hval : c.toNat.isValidChar := c.valid
  rw [if_pos hval, Char.ofNat_toNat]

theorem unescape_of_shortEscape {c e : Char} (h : shortEscape c = some e) :
    e ≠ 'u' ∧ unescape e = some c := by
  unfold shortEscape at h
  split_ifs at h with hc h₁ h₂ h₃ h₄ h₅
  · cases h
    rcases hc with rfl | rfl <;> decide
  all_goals
    cases h
    subst_vars
    decide

theorem ne_of_shortEscape_eq_none {c : Char} (h : shortEscape c = none) : c ≠ '"' ∧ c ≠ '\\' := by
  constructor
  · rintro rfl
    exact absurd h (by decide)
  · rintro rfl
    exact absurd h (by decide)

/-- Reading an escaped character gives it back. -/
theorem unquote_escape (c : Char) (l : List Char) :
    unquote (escape c ++ l) = consChar (some c) (unquote l) := by
  unfold escape
  split
  · rename_i e he
    obtain ⟨hu, he⟩ := unescape_of_shortEscape he
    rw [← he]
    simp [unquote, hu]
  · rename_i hnone
    obtain ⟨hquo, hback⟩ := ne_of_shortEscape_eq_none hnone
    split
    · rename_i hc
      rw [← unescapeUnicode_digits (toNat_lt_of_needsUnicode hc)]
      rfl
    · rename_i hc
      have hctrl : ¬c.toNat < 0x20 := fun hlt => hc (.inl hlt)
      simp [unquote, hback, hctrl]

/-- Reading a string literal gives its string and what follows it. -/
theorem unquote_quoteTail (s rest : List Char) :
    unquote (quoteTail s ++ rest) = some (s, rest) := by
  induction s with
  | nil => rfl
  | cons c s ih =>
    have htail : quoteTail (c :: s) ++ rest = escape c ++ (quoteTail s ++ rest) := by
      simp [quoteTail]
    rw [htail, unquote_escape, ih]
    rfl

/-! ## Integer literals -/

/-- The text does not begin with a digit. -/
def NoDigit (l : List Char) : Prop := ∀ c ∈ l.head?, c.isDigit = false

theorem readDigits_toDigits (n : ℕ) {rest : List Char} (h : NoDigit rest) :
    readDigits (Nat.toDigits 10 n ++ rest) = some (n, rest) := by
  have hall : ∀ c ∈ Nat.toDigits 10 n, c.isDigit = true :=
    fun c hc => Nat.isDigit_of_mem_toDigits (by decide) (by decide) hc
  have hstop : rest.takeWhile Char.isDigit = [] ∧ rest.dropWhile Char.isDigit = rest := by
    cases rest with
    | nil => simp
    | cons c => simp [h c rfl]
  have hpar : parseDigits (Nat.toDigits 10 n) = some n := by
    rw [parseDigits, if_pos ⟨Nat.toDigits_ne_nil, List.all_eq_true.2 hall⟩]
    exact congrArg some Nat.ofDigitChars_ten_toDigits
  rw [readDigits, takeWhile_append_of_pos hall, dropWhile_append_of_pos hall, hstop.1,
    hstop.2, append_nil, hpar]
  rfl

theorem toDigits_head (n : ℕ) : ∃ c l, Nat.toDigits 10 n = c :: l ∧ c.isDigit = true := by
  obtain ⟨c, l, hcl⟩ := exists_cons_of_ne_nil (Nat.toDigits_ne_nil (b := 10) (n := n))
  have hc : c ∈ Nat.toDigits 10 n := hcl ▸ mem_cons_self
  exact ⟨c, l, hcl, Nat.isDigit_of_mem_toDigits (by decide) (by decide) hc⟩

/-- An integer literal begins with a minus sign or with a digit. -/
theorem intLiteral_head (n : ℤ) : ∃ c l, intLiteral n = c :: l ∧ (c = '-' ∨ c.isDigit = true) := by
  unfold intLiteral
  split
  · exact ⟨_, _, rfl, .inl rfl⟩
  · obtain ⟨c, l, hcl, hc⟩ := toDigits_head n.natAbs
    exact ⟨c, l, hcl, .inr hc⟩

theorem readInt_intLiteral (n : ℤ) {rest : List Char} (h : NoDigit rest) :
    readInt (intLiteral n ++ rest) = some (n, rest) := by
  unfold intLiteral
  split
  · rename_i hneg
    simp only [cons_append, readInt, readDigits_toDigits _ h, map_some]
    congr
    omega
  · obtain ⟨c, l, hcl, hc⟩ := toDigits_head n.natAbs
    have hmin : c ≠ '-' := by
      rintro rfl
      exact absurd hc (by decide)
    have hread : readInt (Nat.toDigits 10 n.natAbs ++ rest) =
        (readDigits (Nat.toDigits 10 n.natAbs ++ rest)).map fun (n, rest) => ((n : ℤ), rest) := by
      rw [hcl]
      simp [readInt, hmin]
    rw [hread, readDigits_toDigits _ h]
    simp only [map_some]
    congr
    omega

/-! ## Values -/

theorem readValue_int (n : ℤ) (fuel : ℕ) {rest : List Char} (h : NoDigit rest) :
    readValue (fuel + 1) (intLiteral n ++ rest) = some (.int n, rest) := by
  obtain ⟨c, l, hcl, hc⟩ := intLiteral_head n
  have hread : readValue (fuel + 1) (intLiteral n ++ rest) =
      (readInt (intLiteral n ++ rest)).map fun (n, rest) => (.int n, rest) := by
    have hoth : c ≠ 't' ∧ c ≠ 'f' ∧ c ≠ '"' ∧ c ≠ '\x7b' := by
      refine ⟨?_, ?_, ?_, ?_⟩ <;> (rintro rfl; revert hc; decide)
    rw [hcl]
    simp [readValue, hoth]
  rw [hread, readInt_intLiteral n h]
  rfl

/-- What follows a member's value is not a digit. -/
theorem noDigit_encodeMembers (fields : List (String × Json)) (rest : List Char) :
    NoDigit (encodeMembers false fields ++ rest) := by
  intro c hc
  cases fields with
  | nil =>
    obtain rfl : c = '\x7d' := by simpa [encodeMembers, eq_comm] using hc
    decide
  | cons =>
    obtain rfl : c = ',' := by simpa [encodeMembers, eq_comm] using hc
    decide

mutual

/-- **Reading an encoded value** gives the value and what follows it. -/
theorem readValue_encodeChars : ∀ (j : Json) (fuel : ℕ) {rest : List Char}, NoDigit rest →
    (encodeChars j).length < fuel → readValue fuel (encodeChars j ++ rest) = some (j, rest)
  | .bool true, fuel + 1, rest, _, _ => by simp [encodeChars, readValue]
  | .bool false, fuel + 1, rest, _, _ => by simp [encodeChars, readValue]
  | .int n, fuel + 1, rest, h, _ => by
    rw [encodeChars]
    exact readValue_int n fuel h
  | .str s, fuel + 1, rest, _, _ => by simp [encodeChars, readValue, unquote_quoteTail]
  | .obj fields, fuel + 1, rest, _, hfuel => by
    rw [encodeChars, length_cons] at hfuel
    have hmem := readMembers_encodeMembers fields true fuel rest (by omega)
    simp [encodeChars, readValue, hmem]

/-- Reading encoded members gives the members and what follows the object. -/
theorem readMembers_encodeMembers : ∀ (fields : List (String × Json)) (first : Bool) (fuel : ℕ)
    (rest : List Char), (encodeMembers first fields).length < fuel →
    readMembers fuel first (encodeMembers first fields ++ rest) = some (fields, rest)
  | [], first, fuel + 1, rest, _ => by simp [encodeMembers, readMembers]
  | (key, value) :: fields, first, fuel + 2, rest, hfuel => by
    have hlen : (encodeChars value).length < fuel ∧ (encodeMembers false fields).length < fuel := by
      cases first <;> simp [encodeMembers, quoteTail] at hfuel <;> omega
    have hval := readValue_encodeChars value fuel (noDigit_encodeMembers fields rest) hlen.1
    have hfie := readMembers_encodeMembers fields false fuel rest hlen.2
    -- The opening quote of the key is read by `readMembers`, the rest by `readMember`.
    have hmem : readMember (fuel + 1) (quoteTail key.toList ++
        ':' :: (encodeChars value ++ (encodeMembers false fields ++ rest))) =
          some ((key, value) :: fields, rest) := by
      simp [readMember, unquote_quoteTail, hval, hfie]
    cases first <;> simp [encodeMembers, readMembers, hmem]
  | (key, value) :: fields, first, 1, rest, hfuel => by
    cases first <;> simp [encodeMembers] at hfuel

end

/-- **The round trip**: decoding an encoded value gives it back. -/
theorem decode_encode (j : Json) : decode (encode j) = some j := by
  have hread := readValue_encodeChars j (j.encodeChars.length + 1) (by simp [NoDigit] : NoDigit [])
     (Nat.lt_succ_self _)
  rw [append_nil] at hread
  simp [decode, encode, hread]

theorem encode_injective : Function.Injective encode := by
  intro j j' h
  have hdec := congrArg decode h
  rw [decode_encode, decode_encode] at hdec
  exact some.inj hdec

/-! ## Struct fields

`json.Unmarshal` into a struct: a field whose key is missing keeps its zero value, a value of
another type is an error. -/

variable (fields : List (String × Json)) (key : String)

def intField : Option ℤ :=
  match fields.lookup key with
  | none => some 0
  | some (.int n) => some n
  | some _ => none

/-- An integer field that holds a non-negative number. -/
def natField : Option ℕ := (intField fields key).bind fun n => if 0 ≤ n then some n.toNat else none

def strField : Option String :=
  match fields.lookup key with
  | none => some ""
  | some (.str s) => some s
  | some _ => none

def boolField : Option Bool :=
  match fields.lookup key with
  | none => some false
  | some (.bool b) => some b
  | some _ => none

def objField : Option (List (String × Json)) :=
  match fields.lookup key with
  | none => some []
  | some (.obj members) => some members
  | some _ => none

end Json

end LmmApi.Go
