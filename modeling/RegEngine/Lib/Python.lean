import Mathlib.Data.String.Basic

/-!
# Python's texts

Truth value and `or` of optional texts, `repr` of texts and of lists of texts, the methods and
substitutions that normalise a text, prefixes, lines and parts. Lower case is that of ASCII and of the
two other characters whose lower case has an ASCII letter in it.
-/

namespace Lib.Python

/-- The truth value of an optional text. -/
def truthy : Option String → Bool
  | some s => s ≠ ""
  | none => false

/-- `s or d`. -/
def orText (s : Option String) (d : String) : String :=
  match s with
  | some t => if t = "" then d else t
  | none => d

/-- `s or t` of two optional texts. -/
def orOption (s t : Option String) : Option String := if truthy s then s else t

/-- Two lower-case hexadecimal digits. -/
def hex2 (n : Nat) : List Char := [Nat.digitChar (n / 16 % 16), Nat.digitChar (n % 16)]

/-- A character inside `repr`, between quotes `q`; characters past ASCII stand as they are. -/
def reprChar (q c : Char) : List Char :=
  if c = '\\' ∨ c = q then ['\\', c]
  else if c = '\n' then ['\\', 'n']
  else if c = '\r' then ['\\', 'r']
  else if c = '\t' then ['\\', 't']
  else if c.toNat < 32 ∨ c.toNat = 127 then '\\' :: 'x' :: hex2 c.toNat
  else [c]

/-- `repr` of a text: in single quotes, unless it has a single and no double quote. -/
def reprText (s : String) : String :=
  let q := if '\'' ∈ s.toList ∧ '"' ∉ s.toList then '"' else '\''
  String.ofList (q :: (s.toList.flatMap (reprChar q) ++ [q]))

/-- `repr` of a list of texts. -/
def reprList (l : List String) : String := "[" ++ ", ".intercalate (l.map reprText) ++ "]"

/-! ## Normalising -/

/-- `str.isspace`. -/
def isSpace (c : Char) : Bool :=
  let n := c.toNat
  (9 ≤ n ∧ n ≤ 13) ∨ (28 ≤ n ∧ n ≤ 32) ∨ n = 133 ∨ n = 160 ∨ n = 5760 ∨
    (8192 ≤ n ∧ n ≤ 8202) ∨ n = 8232 ∨ n = 8233 ∨ n = 8239 ∨ n = 8287 ∨ n = 12288

/-- `s.strip(chars)`, the characters being given by a test. -/
def stripChars (p : Char → Bool) (s : List Char) : List Char :=
  ((s.dropWhile p).reverse.dropWhile p).reverse

def strip (s : String) : String := String.ofList (stripChars isSpace s.toList)

def lowerChar (c : Char) : List Char :=
  if c.toNat = 0x212a then ['k']
  else if c.toNat = 0x130 then ['i', Char.ofNat 0x307]
  else [c.toLower]

/-- `s.lower()`. -/
def lower (s : String) : String := String.ofList (s.toList.flatMap lowerChar)

/-- `[a-z0-9]`. -/
def isAlnum (c : Char) : Bool := c.isLower || c.isDigit

/-- `re.sub` of every longest run of characters with `p`; the flag says that one is going on. -/
def subRuns (p : Char → Bool) (rep : List Char) : Bool → List Char → List Char
  | _, [] => []
  | inRun, c :: cs =>
    if p c then (if inRun then [] else rep) ++ subRuns p rep true cs
    else c :: subRuns p rep false cs

/-- `s.replace(pat, rep)`, past the characters of a match that are still to be skipped. -/
def replaceFrom (pat rep : List Char) : Nat → List Char → List Char
  | _, [] => []
  | skip + 1, _ :: cs => replaceFrom pat rep skip cs
  | 0, c :: cs =>
    if pat.isPrefixOf (c :: cs) then rep ++ replaceFrom pat rep (pat.length - 1) cs
    else c :: replaceFrom pat rep 0 cs

def replace (pat rep s : String) : String :=
  String.ofList (replaceFrom pat.toList rep.toList 0 s.toList)

/-! ## Prefixes and lines -/

/-- `sub in s`. -/
def contains (s sub : String) : Bool := s.toList.tails.any (sub.toList.isPrefixOf ·)

/-- `s.startswith(pre)`. -/
def startsWith (s pre : String) : Bool := pre.toList.isPrefixOf s.toList

theorem startsWith_iff {s pre : String} : startsWith s pre = true ↔ pre.toList <+: s.toList := by
  simp [startsWith]

/-- The characters at which `str.splitlines` ends a line. -/
def isLineBreak (c : Char) : Bool :=
  let n := c.toNat
  (10 ≤ n ∧ n ≤ 13) ∨ (28 ≤ n ∧ n ≤ 30) ∨ n = 133 ∨ n = 8232 ∨ n = 8233

/-- The lines of a text, the first of which begins with `line`; after a carriage return, a line feed
belongs to the same break. -/
def splitLinesFrom (line : List Char) (afterReturn : Bool) : List Char → List (List Char)
  | [] => if line.isEmpty then [] else [line]
  | c :: cs =>
    if afterReturn ∧ c = '\n' then splitLinesFrom [] false cs
    else if isLineBreak c then line :: splitLinesFrom [] (c = '\r') cs
    else splitLinesFrom (line ++ [c]) false cs

/-- `s.splitlines()`. -/
def splitLines (s : String) : List String :=
  (splitLinesFrom [] false s.toList).map String.ofList

/-- `s.split(sep)` at a character. -/
def split (sep : Char) (s : String) : List String := (s.toList.splitOn sep).map String.ofList

/-- A text with one separator in it. -/
theorem split_append {sep : Char} {a b : String} (ha : sep ∉ a.toList) (hb : sep ∉ b.toList) :
    split sep (a ++ String.singleton sep ++ b) = [a, b] := by
  have htext : (a ++ String.singleton sep ++ b).toList = [sep].intercalate [a.toList, b.toList] := by
    simp
  rw [split, htext, List.splitOn_intercalate sep (by simp [ha, hb]) (by simp)]
  simp

end Lib.Python
