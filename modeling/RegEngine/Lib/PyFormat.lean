import RegEngine.Lib.Except
import RegEngine.Lib.IntText

/-!
# `str.format` with keyword arguments

The markup of Python's `str.format`, as CPython reads it: literal text with doubled braces, and
replacement fields `{name!conversion:spec}` whose specification may hold fields of its own. The part
of a name up to the first `.` or `[` is looked up among the arguments; attributes, items, conversions
and the format of a value are the `Formatter`'s.

* `expand_unknown`: a text whose first field names no argument is not formatted.
-/

namespace Lib.Python

open Lib.Except

inductive FormatError where
  | valueError (message : String)
  | indexError
  | keyError (key : String)
  /-- Raised by a value: an attribute or an item it lacks, a format it does not know. -/
  | ofValue
  deriving DecidableEq

/-- What a value does in a field: the attributes and items behind the first part of the name, the
conversion, and the format with a specification. -/
structure Formatter (α : Type) where
  member : α → List Char → Except FormatError α
  convert : α → Char → Except FormatError α
  format : α → List Char → Except FormatError (List Char)

structure Field where
  name : List Char
  conversion : Option Char := none
  spec : List Char := []

/-! ## Reading the markup -/

/-- The literal text up to a field, to a doubled brace or to the end, and whether a field follows. -/
def readLiteral : List Char → Except FormatError (List Char × Bool × List Char)
  | [] => .ok ([], false, [])
  | c :: cs =>
    if c = '{' ∨ c = '}' then
      if cs.head? = some c then .ok ([c], false, cs.tail)
      else if c = '{' ∧ cs ≠ [] then .ok ([], true, cs)
      else .error (.valueError ("Single '" ++ String.singleton c ++
        "' encountered in format string"))
    else (readLiteral cs).map fun r => (c :: r.1, r.2)

/-- The name of a field with the character that ends it; between square brackets nothing does. -/
def readName : Bool → List Char → Except FormatError (List Char × Char × List Char)
  | _, [] => .error (.valueError "expected '\x7d' before end of string")
  | true, c :: cs => (readName (c ≠ ']') cs).map fun r => (c :: r.1, r.2)
  | false, c :: cs =>
    if c = '{' then .error (.valueError "unexpected '\x7b' in field name")
    else if c = '}' ∨ c = ':' ∨ c = '!' then .ok ([], c, cs)
    else (readName (c = '[') cs).map fun r => (c :: r.1, r.2)

/-- The specification, up to the brace that closes the field. -/
def readSpec : Nat → List Char → Except FormatError (List Char × List Char)
  | _, [] => .error (.valueError "unmatched '\x7b' in format spec")
  | depth, c :: cs =>
    if c = '}' then
      match depth with
      | 0 => .ok ([], cs)
      | depth + 1 => (readSpec depth cs).map fun r => (c :: r.1, r.2)
    else (readSpec (if c = '{' then depth + 1 else depth) cs).map fun r => (c :: r.1, r.2)

/-- What stands behind the `!` of a field. -/
def readConversion (name : List Char) : List Char → Except FormatError (Field × List Char)
  | [] => .error (.valueError "end of string while looking for conversion specifier")
  | conversion :: cs =>
    match cs with
    | [] => .error (.valueError "unmatched '\x7b' in format spec")
    | c :: cs =>
      if c = '}' then .ok ({ name := name, conversion := some conversion }, cs)
      else if c = ':' then
        (readSpec 0 cs).map fun r =>
          ({ name := name, conversion := some conversion, spec := r.1 }, r.2)
      else .error (.valueError "expected ':' after conversion specifier")

def readField (cs : List Char) : Except FormatError (Field × List Char) := do
  let (name, stop, rest) ← readName false cs
  if stop = '}' then pure ({ name := name }, rest)
  else if stop = '!' then readConversion name rest
  else (readSpec 0 rest).map fun r => ({ name := name, spec := r.1 }, r.2)

/-! Reading goes forward. -/

theorem readLiteral_length {cs : List Char} : ∀ {r : List Char × Bool × List Char},
    readLiteral cs = .ok r → r.2.2.length ≤ cs.length - 1 := by
  induction cs with
  | nil =>
    intro r h
    cases h
    exact Nat.le_refl _
  | cons c cs ih =>
    intro r h
    rw [readLiteral] at h
    split_ifs at h with hc hd ho
    · cases h
      simp
    · cases h
      simp
    · obtain ⟨r', hr', rfl⟩ := map_ok_iff.1 h
      have := ih hr'
      simp only [List.length_cons]
      omega

theorem readName_length : ∀ {cs : List Char} {bracket : Bool} {r : List Char × Char × List Char},
    readName bracket cs = .ok r → r.2.2.length < cs.length
  | [], _, _, h => by simp [readName] at h
  | c :: cs, true, _, h => by
    obtain ⟨r', hr', rfl⟩ := map_ok_iff.1 h
    have hlen := readName_length hr'
    exact Nat.lt_succ_of_lt hlen
  | c :: cs, false, _, h => by
    rw [readName] at h
    split_ifs at h with hbrace hstop
    · cases h
      exact Nat.lt_succ_self _
    · obtain ⟨r', hr', rfl⟩ := map_ok_iff.1 h
      have hlen := readName_length hr'
      exact Nat.lt_succ_of_lt hlen

theorem readSpec_length : ∀ {cs : List Char} {depth : Nat} {r : List Char × List Char},
    readSpec depth cs = .ok r → r.2.length < cs.length
  | [], _, _, h => by simp [readSpec] at h
  | c :: cs, depth, _, h => by
    unfold readSpec at h
    split at h
    · cases depth with
      | zero =>
        cases h
        exact Nat.lt_succ_self _
      | succ depth =>
        obtain ⟨r', hr', rfl⟩ := map_ok_iff.1 h
        have hlen := readSpec_length hr'
        exact Nat.lt_succ_of_lt hlen
    · obtain ⟨r', hr', rfl⟩ := map_ok_iff.1 h
      have hlen := readSpec_length hr'
      exact Nat.lt_succ_of_lt hlen

theorem readConversion_length {name cs : List Char} {r : Field × List Char}
    (h : readConversion name cs = .ok r) : r.2.length < cs.length := by
  cases cs with
  | nil => cases h
  | cons conversion cs =>
    cases cs with
    | nil => cases h
    | cons c cs =>
      rw [readConversion] at h
      split_ifs at h with hclose hspec
      · cases h
        exact Nat.lt_succ_of_lt (Nat.lt_succ_self _)
      · obtain ⟨r', hr', rfl⟩ := map_ok_iff.1 h
        exact Nat.lt_succ_of_lt (Nat.lt_succ_of_lt (readSpec_length hr'))

theorem readField_length {cs : List Char} {r : Field × List Char} (h : readField cs = .ok r) :
    r.2.length < cs.length := by
  obtain ⟨⟨name, stop, rest⟩, hname, h⟩ := bind_ok_iff.1 h
  have hrest : rest.length < cs.length := readName_length hname
  dsimp only at h
  split_ifs at h with hclose hconv
  · cases h
    exact hrest
  · exact Nat.lt_trans (readConversion_length h) hrest
  · obtain ⟨r', hr', rfl⟩ := map_ok_iff.1 h
    exact Nat.lt_trans (readSpec_length hr') hrest

/-! ## Formatting -/

section
variable {α : Type} (F : Formatter α) (kwargs : List (String × α))

/-- The value a field names. There are no positional arguments, so a number, or no name, finds none. -/
def fieldObject (name : List Char) : Except FormatError α :=
  let first := name.takeWhile fun c => c ≠ '.' ∧ c ≠ '['
  if first.all fun c => (decimal? c).isSome then .error .indexError
  else match kwargs.lookup (String.ofList first) with
    | none => .error (.keyError (String.ofList first))
    | some value => F.member value (name.dropWhile fun c => c ≠ '.' ∧ c ≠ '[')

/-- A text with its fields replaced, down to a depth of fields inside specifications. -/
def expand : Nat → List Char → Except FormatError (List Char)
  | 0, _ => .error (.valueError "Max string recursion exceeded")
  | depth + 1, cs =>
    if _hne : cs = [] then .ok []
    else
      match _hlit : readLiteral cs with
      | .error e => .error e
      | .ok (literal, false, rest) => (expand (depth + 1) rest).map (literal ++ ·)
      | .ok (literal, true, rest) =>
        match _hfield : readField rest with
        | .error e => .error e
        | .ok (field, rest') => do
          let value ← fieldObject F kwargs field.name
          let value ← match field.conversion with
            | none => pure value
            | some conversion => F.convert value conversion
          let spec ← if '{' ∈ field.spec then expand depth field.spec else pure field.spec
          let text ← F.format value spec
          let more ← expand (depth + 1) rest'
          pure (literal ++ text ++ more)
termination_by depth cs => (depth, cs.length)
decreasing_by
  · have hlen := readLiteral_length _hlit
    have hpos := List.length_pos_iff.2 _hne
    apply Prod.Lex.right
    dsimp only at hlen
    omega
  · have hlen := readLiteral_length _hlit
    have hlen' := readField_length _hfield
    apply Prod.Lex.right
    dsimp only at hlen hlen'
    omega
  · exact Prod.Lex.left _ _ (Nat.lt_succ_self depth)

/-- `template.format(**kwargs)`. -/
def strFormat (template : String) : Except FormatError String :=
  (expand F kwargs 2 template.toList).map String.ofList

end

/-! ## A field that names no argument -/

/-- A character that stands for itself in literal text and in the first part of a name. -/
def IsPlain (c : Char) : Prop :=
  c ≠ '{' ∧ c ≠ '}' ∧ c ≠ ':' ∧ c ≠ '!' ∧ c ≠ '[' ∧ c ≠ '.'

theorem readLiteral_field {pre rest : List Char} (hopen : '{' ∉ pre) (hclose : '}' ∉ pre)
    (hne : rest ≠ []) (hhead : rest.head? ≠ some '{') :
    readLiteral (pre ++ '{' :: rest) = .ok (pre, true, rest) := by
  induction pre with
  | nil =>
    show readLiteral ('{' :: rest) = _
    rw [readLiteral, if_pos (.inl rfl), if_neg hhead, if_pos ⟨rfl, hne⟩]
  | cons c pre ih =>
    obtain ⟨hco, hopen⟩ := not_or.1 <| List.mem_cons.not.1 hopen
    obtain ⟨hcc, hclose⟩ := not_or.1 <| List.mem_cons.not.1 hclose
    rw [List.cons_append, readLiteral, if_neg (by
      rintro (rfl | rfl)
      · exact hco rfl
      · exact hcc rfl), ih hopen hclose]
    rfl

theorem readName_plain {key : List Char} (hkey : ∀ c ∈ key, IsPlain c) (rest : List Char) :
    readName false (key ++ rest) = (readName false rest).map fun r => (key ++ r.1, r.2) := by
  induction key with
  | nil =>
    cases h : readName false rest <;> simp [h, Except.map]
  | cons c key ih =>
    obtain ⟨hopen, hclose, hcolon, hbang, hbracket, -⟩ := hkey c List.mem_cons_self
    rw [List.cons_append, readName, if_neg hopen, if_neg (by simp [hclose, hcolon, hbang])]
    rw [decide_eq_false hbracket, ih fun c hc => hkey c (List.mem_cons_of_mem _ hc)]
    cases readName false rest <;> rfl

theorem fieldObject_unknown {α : Type} (F : Formatter α) {kwargs : List (String × α)}
    {key rest : List Char} (hkey : ∀ c ∈ key, IsPlain c)
    (hname : ¬ key.all fun c => (decimal? c).isSome)
    (hlookup : kwargs.lookup (String.ofList key) = none) :
    fieldObject F kwargs (key ++ '.' :: rest) = .error (.keyError (String.ofList key)) := by
  have hfirst : (key ++ '.' :: rest).takeWhile (fun c => c ≠ '.' ∧ c ≠ '[') = key := by
    rw [List.takeWhile_append_of_pos]
    · simp
    · intro c hc
      obtain ⟨-, -, -, -, hbracket, hdot⟩ := hkey c hc
      simp [hbracket, hdot]
  unfold fieldObject
  dsimp only
  rw [hfirst, if_neg hname, hlookup]

theorem readField_name {key rest : List Char} (hkey : ∀ c ∈ key, IsPlain c)
    {r : Field × List Char} (h : readField (key ++ '.' :: rest) = .ok r) :
    ∃ name, r.1.name = key ++ '.' :: name := by
  obtain ⟨⟨name, stop, rest'⟩, hname, h⟩ := bind_ok_iff.1 h
  rw [readName_plain hkey] at hname
  obtain ⟨s, hs, hname⟩ := map_ok_iff.1 hname
  obtain ⟨⟨name', stop', rest''⟩, -, rfl⟩ : ∃ s', readName false rest = .ok s' ∧
      ('.' :: s'.1, s'.2) = s := map_ok_iff.1 hs
  cases hname
  dsimp only at h
  refine ⟨name', ?_⟩
  split_ifs at h with hclose hconv
  · cases h
    rfl
  · unfold readConversion at h
    split at h
    · cases h
    · split at h
      · cases h
      · split_ifs at h with hbrace hspec
        · cases h
          rfl
        · obtain ⟨_, _, rfl⟩ := map_ok_iff.1 h
          rfl
  · obtain ⟨_, _, rfl⟩ := map_ok_iff.1 h
    rfl

/-- **A text whose first field is an attribute of an unknown argument is not formatted.** -/
theorem expand_unknown {α : Type} (F : Formatter α) {kwargs : List (String × α)}
    {pre key rest : List Char} (hopen : '{' ∉ pre) (hclose : '}' ∉ pre)
    (hkey : ∀ c ∈ key, IsPlain c) (hname : ¬ key.all fun c => (decimal? c).isSome)
    (hlookup : kwargs.lookup (String.ofList key) = none) (depth : Nat) :
    ∃ err, expand F kwargs (depth + 1) (pre ++ '{' :: (key ++ '.' :: rest)) = .error err := by
  have hhead : (key ++ '.' :: rest).head? ≠ some '{' := by
    cases key with
    | nil => simp
    | cons c key =>
      intro h
      exact (hkey c List.mem_cons_self).1 (Option.some.inj h)
  have hlit := readLiteral_field hopen hclose (List.append_ne_nil_of_right_ne_nil key
    (List.cons_ne_nil '.' rest)) hhead
  rw [expand, dif_neg (by simp)]
  split
  · exact ⟨_, rfl⟩
  · rename_i hlit'
    rw [hlit] at hlit'
    cases hlit'
  · rename_i hlit'
    rw [hlit] at hlit'
    cases hlit'
    split
    · exact ⟨_, rfl⟩
    · rename_i field rest' hfield
      obtain ⟨name, hfieldName⟩ := readField_name hkey hfield
      dsimp only at hfieldName
      rw [hfieldName, fieldObject_unknown F hkey hname hlookup]
      exact ⟨_, rfl⟩

end Lib.Python
