import Mathlib.Data.List.Sort
import Mathlib.Data.Rat.Defs
import Mathlib.Data.String.Basic
import Mathlib.Algebra.Order.Ring.Unbundled.Rat
import RegEngine.Lib.Python

/-!
# JSON values and their canonical text

`Json` holds what a Python JSON codec reads and writes: numbers are integers or finite floats, a
float being given by the shortest decimal that denotes it (`Decimal`), the one `repr` prints.

* `dumps` is `json.dumps(v, sort_keys=True, separators=(",", ":"), ensure_ascii=True)`: the text
  (`render`) of the value with its keys in order (`sortKeys`). Two values with one `sortKeys` are
  the same JSON value.
* `get?` and `truthy` are a dictionary's `get` and Python's truth value.
-/

namespace Lib

/-- The decimal `mantissa * 10 ^ exponent`, without trailing zeros: one value for each number. -/
structure Decimal where
  mantissa : Int
  exponent : Int
  shortest : (mantissa = 0 ∧ exponent = 0) ∨ mantissa % 10 ≠ 0 := by decide
  deriving DecidableEq

namespace Decimal

/-! Some decimals of the models are in shortest form. -/

theorem shortest_zero : ((0 : Int) = 0 ∧ (0 : Int) = 0) ∨ (0 : Int) % 10 ≠ 0 := by decide

theorem shortest_five : ((5 : Int) = 0 ∧ (0 : Int) = 0) ∨ (5 : Int) % 10 ≠ 0 := by decide

theorem shortest_twenty : ((2 : Int) = 0 ∧ (1 : Int) = 0) ∨ (2 : Int) % 10 ≠ 0 := by decide

theorem shortest_fifty : ((5 : Int) = 0 ∧ (1 : Int) = 0) ∨ (5 : Int) % 10 ≠ 0 := by decide

theorem shortest_nine_tenths : ((9 : Int) = 0 ∧ (-1 : Int) = 0) ∨ (9 : Int) % 10 ≠ 0 := by decide

def toRat (d : Decimal) : Rat :=
  if 0 ≤ d.exponent then ((d.mantissa * 10 ^ d.exponent.toNat : Int) : Rat)
  else mkRat d.mantissa (10 ^ (-d.exponent).toNat)

/-- `float.is_integer`. -/
def isInteger (d : Decimal) : Bool := d.toRat.den = 1

/-- A natural number to the nearest one with 53 significant bits, to even from half way. -/
def roundDouble (n : Nat) : Nat :=
  let shift := n.log2 - 52
  let q := n / 2 ^ shift
  let r := 2 * (n % 2 ^ shift)
  let up := 2 ^ shift < r ∨ (2 ^ shift = r ∧ q % 2 = 1)
  (if up then q + 1 else q) * 2 ^ shift

/-- `int` of a float that is an integer: past 53 bits not the shortest decimal. -/
def toInt (d : Decimal) : Int :=
  let n := d.toRat.num
  n.sign * roundDouble n.natAbs

/-- An exponent as `repr` prints it: a sign and at least two digits. -/
def exponentText (e : Int) : String :=
  (if e < 0 then "-" else "+") ++ (if e.natAbs < 10 then "0" else "") ++ toString e.natAbs

/-- Python's `repr` of a float: positional for a decimal point within 16 digits of the first digit
and at most four zeros before it, else in scientific notation. -/
def repr (d : Decimal) : String :=
  let digits := (toString d.mantissa.natAbs).toList
  let point : Int := digits.length + d.exponent
  (if d.mantissa < 0 then "-" else "") ++
    if -4 < point ∧ point ≤ 16 then
      if point ≤ 0 then "0." ++ String.ofList (List.replicate (-point).toNat '0' ++ digits)
      else if digits.length ≤ point.toNat then
        String.ofList (digits ++ List.replicate (point.toNat - digits.length) '0') ++ ".0"
      else
        String.ofList (digits.take point.toNat) ++ "." ++ String.ofList (digits.drop point.toNat)
    else
      String.ofList (digits.take 1) ++
        (if digits.length = 1 then "" else "." ++ String.ofList (digits.drop 1)) ++
        "e" ++ exponentText (point - 1)

end Decimal

inductive Json where
  | null
  | bool (b : Bool)
  | int (n : Int)
  | float (x : Decimal)
  | str (s : String)
  | arr (l : List Json)
  | obj (fields : List (String × Json))

namespace Json

/-! ## Reading -/

/-- `d.get(key)` of a dictionary. -/
def get? : Json → String → Option Json
  | obj fields, key => (fields.find? fun f => f.1 == key).map (·.2)
  | _, _ => none

/-- Python's truth value. -/
def truthy : Json → Bool
  | null => false
  | bool b => b
  | int n => n ≠ 0
  | float x => x.mantissa ≠ 0
  | str s => s ≠ ""
  | arr l => !l.isEmpty
  | obj fields => !fields.isEmpty

/-- The number a JSON number denotes. -/
def num? : Json → Option Rat
  | int n => some n
  | float x => some x.toRat
  | _ => none

def bool? : Json → Option Bool
  | bool b => some b
  | _ => none

def int? : Json → Option Int
  | int n => some n
  | _ => none

def str? : Json → Option String
  | str s => some s
  | _ => none

def arr? : Json → Option (List Json)
  | arr l => some l
  | _ => none

/-! ## Python's equality -/

/-- The number a value counts as; a double past the integers that decimals name exactly counts as
the integer it holds. -/
def pyNum? : Json → Option Rat
  | bool b => some (if b then 1 else 0)
  | int n => some n
  | float x => some (if x.isInteger then x.toInt else x.toRat)
  | _ => none

mutual

/-- `==`. -/
def pyEq : Json → Json → Bool
  | null, null => true
  | str a, str b => a = b
  | arr a, arr b => pyEqItems a b
  | obj a, obj b => a.length = b.length && pyEqFields a b
  | a, b => match a.pyNum?, b.pyNum? with
    | some x, some y => x = y
    | _, _ => false

def pyEqItems : List Json → List Json → Bool
  | [], [] => true
  | a :: l, b :: m => pyEq a b && pyEqItems l m
  | _, _ => false

/-- The fields of the first object are in the second. -/
def pyEqFields : List (String × Json) → List (String × Json) → Bool
  | [], _ => true
  | (k, a) :: l, m => (match m.lookup k with
    | some b => pyEq a b
    | none => false) && pyEqFields l m

end

@[simp] theorem pyEq_str (a b : String) : pyEq (str a) (str b) = decide (a = b) := by
  simp [pyEq]

/-! ## Python's order -/

mutual

/-- How `<`, `<=`, `>` and `>=` order two values; none where they raise a `TypeError`. -/
def pyCmp : Json → Json → Option Ordering
  | str a, str b => some (compare a b)
  | arr a, arr b => pyCmpItems a b
  | a, b => match a.pyNum?, b.pyNum? with
    | some x, some y => some (compare x y)
    | _, _ => none

/-- The first members that differ decide. -/
def pyCmpItems : List Json → List Json → Option Ordering
  | [], [] => some .eq
  | [], _ :: _ => some .lt
  | _ :: _, [] => some .gt
  | a :: l, b :: m => if pyEq a b then pyCmpItems l m else pyCmp a b

end

theorem pyEq_of_num {a b : Json} {p q : Rat} (ha : a.pyNum? = some p) (hb : b.pyNum? = some q) :
    pyEq a b = decide (p = q) := by
  cases a <;> cases b <;> simp [pyNum?] at ha hb <;> simp [pyEq, pyNum?, ha, hb]

theorem pyCmp_of_num {a b : Json} {p q : Rat} (ha : a.pyNum? = some p) (hb : b.pyNum? = some q) :
    pyCmp a b = some (compare p q) := by
  cases a <;> cases b <;> simp [pyNum?] at ha hb <;> simp [pyCmp, pyNum?, ha, hb]

/-- `needle in haystack`; none where it raises a `TypeError`. -/
def pyIn (needle : Json) : Json → Option Bool
  | arr l => some (l.any fun j => pyEq j needle)
  | str s => match needle with
    | str t => some (s.toList.tails.any fun u => t.toList.isPrefixOf u)
    | _ => none
  | obj fields => match needle with
    | str t => some ((fields.map (·.1)).contains t)
    | arr _ | obj _ => none
    | _ => some false
  | _ => none

mutual

/-- Python's `repr`. -/
def pyRepr : Json → String
  | null => "None"
  | bool true => "True"
  | bool false => "False"
  | int n => toString n
  | float x => x.repr
  | str s => Python.reprText s
  | arr l => "[" ++ pyReprItems l ++ "]"
  | obj fields => "\x7b" ++ pyReprFields fields ++ "\x7d"

def pyReprItems : List Json → String
  | [] => ""
  | [j] => pyRepr j
  | j :: l => pyRepr j ++ ", " ++ pyReprItems l

def pyReprFields : List (String × Json) → String
  | [] => ""
  | [(k, j)] => Python.reprText k ++ ": " ++ pyRepr j
  | (k, j) :: l => Python.reprText k ++ ": " ++ pyRepr j ++ ", " ++ pyReprFields l

end

/-! ## Writing -/

/-- A 16-bit code unit as `\uXXXX`. -/
def escapeUnit (n : Nat) : List Char :=
  '\\' :: 'u' :: (List.range 4).map fun i => Nat.digitChar (n / 16 ^ (3 - i) % 16)

/-- A character as `ensure_ascii` writes it. -/
def escapeChar (c : Char) : List Char :=
  if c = '"' then ['\\', '"']
  else if c = '\\' then ['\\', '\\']
  else if c = '\n' then ['\\', 'n']
  else if c = '\r' then ['\\', 'r']
  else if c = '\t' then ['\\', 't']
  else if c.toNat = 8 then ['\\', 'b']
  else if c.toNat = 12 then ['\\', 'f']
  else if 32 ≤ c.toNat ∧ c.toNat ≤ 126 then [c]
  else if c.toNat < 0x10000 then escapeUnit c.toNat
  else escapeUnit (0xd800 + (c.toNat - 0x10000) / 0x400) ++
    escapeUnit (0xdc00 + (c.toNat - 0x10000) % 0x400)

def quote (s : String) : String := "\"" ++ String.ofList (s.toList.flatMap escapeChar) ++ "\""

mutual

/-- The text of a value, keys in the order they stand. -/
def render : Json → String
  | null => "null"
  | bool true => "true"
  | bool false => "false"
  | int n => toString n
  | float x => x.repr
  | str s => quote s
  | arr l => "[" ++ renderItems l ++ "]"
  | obj fields => "\x7b" ++ renderFields fields ++ "\x7d"

def renderItems : List Json → String
  | [] => ""
  | [j] => render j
  | j :: l => render j ++ "," ++ renderItems l

def renderFields : List (String × Json) → String
  | [] => ""
  | [(k, j)] => quote k ++ ":" ++ render j
  | (k, j) :: l => quote k ++ ":" ++ render j ++ "," ++ renderFields l

end

mutual

/-- The value with the keys of every object in order. -/
def sortKeys : Json → Json
  | arr l => arr (sortItems l)
  | obj fields => obj ((sortFields fields).insertionSort fun f g => f.1 ≤ g.1)
  | j => j

def sortItems : List Json → List Json
  | [] => []
  | j :: l => sortKeys j :: sortItems l

def sortFields : List (String × Json) → List (String × Json)
  | [] => []
  | (k, j) :: l => (k, sortKeys j) :: sortFields l

end

/-- The canonical text of a value. -/
def dumps (j : Json) : String := render (sortKeys j)

/-! ## Order -/

/-- The place of a value's type in the order of all values. -/
def rank : Json → Nat
  | null => 0
  | bool _ => 1
  | int _ | float _ => 2
  | str _ => 3
  | arr _ => 4
  | obj _ => 5

mutual

/-- The total order of Rego on JSON values: by type, then within the type; objects by their fields
in key order. -/
def cmp : Json → Json → Ordering
  | bool a, bool b => compare a b
  | int a, int b => compare a b
  | int a, float b => compare (a : Rat) b.toRat
  | float a, int b => compare a.toRat (b : Rat)
  | float a, float b => compare a.toRat b.toRat
  | str a, str b => compare a b
  | arr a, arr b => cmpItems a b
  | obj a, obj b => cmpFields a b
  | a, b => compare a.rank b.rank

def cmpItems : List Json → List Json → Ordering
  | [], [] => .eq
  | [], _ :: _ => .lt
  | _ :: _, [] => .gt
  | a :: l, b :: m => (cmp a b).then (cmpItems l m)

def cmpFields : List (String × Json) → List (String × Json) → Ordering
  | [], [] => .eq
  | [], _ :: _ => .lt
  | _ :: _, [] => .gt
  | (k, a) :: l, (k', b) :: m => ((compare k k').then (cmp a b)).then (cmpFields l m)

end

theorem compare_intCast (a b : Int) : compare a b = compare (a : Rat) (b : Rat) := by
  rcases lt_trichotomy a b with h | h | h
  · rw [compare_lt_iff_lt.2 h, compare_lt_iff_lt.2 (by exact_mod_cast h)]
  · rw [compare_eq_iff_eq.2 h, compare_eq_iff_eq.2 (by exact_mod_cast h)]
  · rw [compare_gt_iff_gt.2 h, compare_gt_iff_gt.2 (by exact_mod_cast h)]

/-- Numbers are ordered by value. -/
theorem cmp_sortKeys_of_num {a b : Json} {p q : Rat} (ha : a.num? = some p) (hb : b.num? = some q) :
    a.sortKeys.cmp b.sortKeys = compare p q := by
  cases a <;> cases b <;> simp [num?] at ha hb <;> subst ha hb <;>
    simp [sortKeys, cmp, compare_intCast]

theorem cmp_str_eq_iff {s : String} {w : Json} : (str s).cmp w = .eq ↔ w = str s := by
  cases w with
  | str t =>
    simp only [cmp, compare_eq_iff_eq, str.injEq]
    exact eq_comm
  | _ => simp [cmp, rank]

theorem sortKeys_eq_str_iff {s : String} {w : Json} : w.sortKeys = str s ↔ w = str s := by
  cases w <;> simp [sortKeys]

/-- Only the same text is equal to a text. -/
theorem cmp_sortKeys_str_iff {s : String} {w : Json} :
    (str s).sortKeys.cmp w.sortKeys = .eq ↔ w = str s := by
  simp only [sortKeys]
  rw [cmp_str_eq_iff, sortKeys_eq_str_iff]

theorem cmp_eq_str_iff {s : String} {w : Json} : w.cmp (str s) = .eq ↔ w = str s := by
  cases w with
  | str t => simp only [cmp, compare_eq_iff_eq, str.injEq]
  | _ => simp [cmp, rank]

theorem cmp_sortKeys_eq_str_iff {s : String} {w : Json} :
    w.sortKeys.cmp (str s).sortKeys = .eq ↔ w = str s := by
  simp only [sortKeys]
  rw [cmp_eq_str_iff, sortKeys_eq_str_iff]

end Json

end Lib
