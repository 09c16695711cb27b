import Mathlib.Algebra.Order.Ring.Int

/-!
# Text in Go

The functions of Go's `strings`, `strconv` and `unicode` packages that validation code is written
with. A Go string that comes from a request body is valid UTF-8, so it is a `String` here; `len`
counts its bytes.

`equalFold` folds ASCII letters and the two other characters whose simple case folding is an ASCII
letter, the long s and the Kelvin sign: it is `strings.EqualFold` whenever one of the two strings is
ASCII.
-/

namespace LmmApi.Go

open List Option

/-! ## The `strings` package -/

variable (s : String)

/-- `len`: the number of bytes of a string. -/
def len : ℕ := (s.toList.map Char.utf8Size).sum

/-- `unicode.IsSpace`. -/
def isSpace (c : Char) : Bool :=
  let n := c.toNat
  (9 ≤ n ∧ n ≤ 13) ∨ n = 0x20 ∨ n = 0x85 ∨ n = 0xA0 ∨ n = 0x1680 ∨ (0x2000 ≤ n ∧ n ≤ 0x200A) ∨
    n = 0x2028 ∨ n = 0x2029 ∨ n = 0x202F ∨ n = 0x205F ∨ n = 0x3000

/-- `strings.TrimFunc`. -/
def trimFunc (p : Char → Bool) (s : String) : String :=
  String.ofList ((s.toList.dropWhile p).reverse.dropWhile p).reverse

/-- `strings.TrimSpace`. -/
def trimSpace : String := trimFunc isSpace s

/-- `strings.Trim` with a cutset of one character. -/
def trim (c : Char) : String := trimFunc (· = c) s

/-- `strings.HasPrefix`. -/
def hasPrefix (s pre : String) : Bool := pre.toList.isPrefixOf s.toList

/-- `strings.HasSuffix`. -/
def hasSuffix (s suf : String) : Bool := suf.toList.isSuffixOf s.toList

/-- `strings.Contains`. -/
def contains (s sub : String) : Bool := s.toList.tails.any fun t => sub.toList.isPrefixOf t

/-- `strings.TrimPrefix`. -/
def trimPrefix (s pre : String) : String :=
  if hasPrefix s pre then String.ofList (s.toList.drop pre.toList.length) else s

/-- `strings.TrimSuffix`. -/
def trimSuffix (s suf : String) : String :=
  if hasSuffix s suf then
    String.ofList (s.toList.take (s.toList.length - suf.toList.length))
  else s

/-- `strings.Split` at a one-character separator. -/
def split (sep : Char) : List String := (s.toList.splitOn sep).map String.ofList

/-- Simple case folding onto the ASCII letters. -/
def foldChar (c : Char) : Char :=
  if c.toNat = 0x17F then 's' else if c.toNat = 0x212A then 'k' else c.toLower

/-- `strings.EqualFold`. -/
def equalFold (s t : String) : Bool := s.toList.map foldChar = t.toList.map foldChar

/-- `strings.ToLower` on ASCII letters. -/
def toLower (s : String) : String := String.ofList (s.toList.map Char.toLower)

/-- `strings.ToUpper` on ASCII letters. -/
def toUpper (s : String) : String := String.ofList (s.toList.map Char.toUpper)

/-- `strings.Fields`. -/
def fields : List String := ((s.toList.splitOnP isSpace).filter (· ≠ [])).map String.ofList

/-! ### Texts that are trimmed -/

/-- The text neither begins nor ends with a character to trim. -/
def Tight (p : Char → Bool) (l : List Char) : Prop :=
  (∀ c ∈ l.head?, p c = false) ∧ ∀ c ∈ l.getLast?, p c = false

variable {p : Char → Bool} {l : List Char}

theorem not_of_head?_dropWhile {c : Char} (h : c ∈ (l.dropWhile p).head?) : p c = false := by
  have hhead := head?_dropWhile_not p l
  rwa [mem_def.1 h] at hhead

theorem dropWhile_eq_self (h : ∀ c ∈ l.head?, p c = false) : l.dropWhile p = l := by
  cases l with
  | nil => rfl
  | cons c => rw [dropWhile_cons_of_neg (by simp [h c rfl])]

theorem tight_trimFunc (p : Char → Bool) (s : String) : Tight p (trimFunc p s).toList := by
  rw [trimFunc, String.toList_ofList]
  refine ⟨fun c hc => ?_, fun c hc => ?_⟩
  · -- what is left begins as the text without its beginning
    have hprefix : ((s.toList.dropWhile p).reverse.dropWhile p).reverse <+:
        s.toList.dropWhile p := by
      have hsuffix := dropWhile_suffix p (l := (s.toList.dropWhile p).reverse)
      rw [← reverse_prefix, reverse_reverse] at hsuffix
      exact hsuffix
    obtain ⟨_, hrest⟩ := hprefix
    refine not_of_head?_dropWhile (l := s.toList) ?_
    rw [← hrest, head?_append, mem_def.1 hc]
    rfl
  · rw [getLast?_reverse] at hc
    exact not_of_head?_dropWhile hc

theorem trimFunc_of_tight {s : String} (h : Tight p s.toList) : trimFunc p s = s := by
  have hlast : ∀ c ∈ s.toList.reverse.head?, p c = false := by
    rw [head?_reverse]
    exact h.2
  rw [trimFunc, dropWhile_eq_self h.1, dropWhile_eq_self hlast, reverse_reverse,
    String.ofList_toList]

theorem trimSpace_trimSpace (s : String) : trimSpace (trimSpace s) = trimSpace s :=
  trimFunc_of_tight (tight_trimFunc isSpace s)

/-- A text between two trimmed ones is trimmed with them. -/
theorem trimSpace_append {a b : String} (m : String) (ha : trimSpace a = a) (hb : trimSpace b = b)
    (hane : a ≠ "") (hbne : b ≠ "") : trimSpace (a ++ m ++ b) = a ++ m ++ b := by
  have hnil {s : String} (hs : s ≠ "") : s.toList ≠ [] := fun h => hs (String.toList_eq_nil_iff.1 h)
  have htighta : Tight isSpace a.toList := ha ▸ tight_trimFunc isSpace a
  have htightb : Tight isSpace b.toList := hb ▸ tight_trimFunc isSpace b
  refine trimFunc_of_tight ⟨?_, ?_⟩
  · rw [String.toList_append, String.toList_append, append_assoc,
      head?_append, head?_eq_some_head (hnil hane), some_or,
      ← head?_eq_some_head (hnil hane)]
    exact htighta.1
  · rw [String.toList_append, getLast?_append, getLast?_eq_some_getLast (hnil hbne),
      some_or, ← getLast?_eq_some_getLast (hnil hbne)]
    exact htightb.2

/-! ## The `strconv` package -/

/-- The value of a decimal digit. -/
def digitVal (c : Char) : ℕ := c.toNat - '0'.toNat

/-- The value of a string of decimal digits. -/
def decimalVal (l : List Char) : ℕ := l.foldl (fun n c => 10 * n + digitVal c) 0

/-- `strconv.ParseUint` in base 10, without the range check. -/
def parseDigits (l : List Char) : Option ℕ :=
  if l ≠ [] ∧ l.all Char.isDigit then some (decimalVal l) else none

/-- `strconv.ParseInt` in base 10 and 64 bits. -/
def parseInt (s : String) : Option ℤ :=
  match s.toList with
  | '+' :: l => (parseDigits l).bind fun n => if n < 2 ^ 63 then some (n : ℤ) else none
  | '-' :: l => (parseDigits l).bind fun n => if n ≤ 2 ^ 63 then some (-(n : ℤ)) else none
  | l => (parseDigits l).bind fun n => if n < 2 ^ 63 then some (n : ℤ) else none

/-- An ASCII letter or digit. -/
def isAlnum (c : Char) : Bool := c.isAlpha || c.isDigit

end LmmApi.Go
