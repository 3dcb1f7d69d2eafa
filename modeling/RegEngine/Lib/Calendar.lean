import RegEngine.Lib.Text

/-!
# Date-times and their ISO-8601 text

A `DateTime` is a wall-clock reading with an optional UTC offset, as Python's `datetime.datetime`
has it; its `instant` is the microsecond it denotes, a naive value being read as UTC.

* `ord2ymd` is the proleptic Gregorian calendar by Python's `_ord2ymd`; `ymd2ord` reads a date
  back (`ymd2ord_ord2ymd`), so a day number is determined by its date.
* `isoformat` is `datetime.isoformat` of the UTC reading. `isoformat_inj`: within the supported
  years, equal texts denote equal instants.
-/

namespace Lib.Calendar

open Lib.Text

/-! ## The Gregorian calendar -/

def isLeap (y : Nat) : Bool := y % 4 = 0 ∧ (y % 100 ≠ 0 ∨ y % 400 = 0)

/-- Days in the years before `y`. -/
def daysBeforeYear (y : Nat) : Nat :=
  (y - 1) * 365 + (y - 1) / 4 - (y - 1) / 100 + (y - 1) / 400

/-- Days in the months before `m` in a common year. -/
def daysBeforeCommonMonth (m : Nat) : Nat :=
  [0, 0, 31, 59, 90, 120, 151, 181, 212, 243, 273, 304, 334].getD m 0

/-- Days in the months before `m`. -/
def daysBeforeMonth (leap : Bool) (m : Nat) : Nat :=
  daysBeforeCommonMonth m + if 2 < m ∧ leap then 1 else 0

/-- Day number of a date; `0001-01-01` is day `0`. -/
def ymd2ord (date : Nat × Nat × Nat) : Nat :=
  daysBeforeYear date.1 + daysBeforeMonth (isLeap date.1) date.2.1 + date.2.2 - 1

/-- Month and day of day `n` of a year: the guess `(n + 50) / 32` is right or one too large. -/
def monthDay (leap : Bool) (n : Nat) : Nat × Nat :=
  let month := (n + 50) / 32
  if n < daysBeforeMonth leap month then (month - 1, n - daysBeforeMonth leap (month - 1) + 1)
  else (month, n - daysBeforeMonth leap month + 1)

/-- Year, month and day of a day number. -/
def ord2ymd (n : Nat) : Nat × Nat × Nat :=
  let n400 := n / 146097
  let r400 := n % 146097
  let n100 := r400 / 36524
  let r100 := r400 % 36524
  let n4 := r100 / 1461
  let r4 := r100 % 1461
  let n1 := r4 / 365
  let r1 := r4 % 365
  let year := n400 * 400 + n100 * 100 + n4 * 4 + n1 + 1
  -- the last day of a leap year, or of a leap cycle, is counted as one year too many
  if n1 = 4 ∨ n100 = 4 then (year - 1, 12, 31)
  else (year, monthDay (isLeap year) r1)

theorem monthDay_common : ∀ n < 365,
    (monthDay false n).1 ≤ 12 ∧ (monthDay false n).2 ≤ 31 ∧
      daysBeforeMonth false (monthDay false n).1 + (monthDay false n).2 = n + 1 := by
  decide +kernel

theorem monthDay_leap : ∀ n < 365,
    (monthDay true n).1 ≤ 12 ∧ (monthDay true n).2 ≤ 31 ∧
      daysBeforeMonth true (monthDay true n).1 + (monthDay true n).2 = n + 1 := by
  decide +kernel

theorem monthDay_spec (leap : Bool) {n : Nat} (h : n < 365) :
    (monthDay leap n).1 ≤ 12 ∧ (monthDay leap n).2 ≤ 31 ∧
      daysBeforeMonth leap (monthDay leap n).1 + (monthDay leap n).2 = n + 1 := by
  cases leap with
  | false => exact monthDay_common n h
  | true => exact monthDay_leap n h

/-- Days before a year given by its place in the 400-, 100- and 4-year cycles. -/
theorem daysBeforeYear_cycles (a : Nat) {b c d : Nat} (hb : b ≤ 3) (hc : c ≤ 24) (hd : d ≤ 3) :
    daysBeforeYear (a * 400 + b * 100 + c * 4 + d + 1) =
      a * 146097 + b * 36524 + c * 1461 + d * 365 := by
  unfold daysBeforeYear
  omega

/-- The date of the last day of a leap year, from the year's place in the cycles. -/
theorem ymd2ord_leap_end (a : Nat) {b c : Nat} (hb : b ≤ 3) (hc : c ≤ 24) (h : c < 24 ∨ b = 3) :
    ymd2ord (a * 400 + b * 100 + c * 4 + 3 + 1, 12, 31) =
      a * 146097 + b * 36524 + c * 1461 + 1460 := by
  have hleap : isLeap (a * 400 + b * 100 + c * 4 + 3 + 1) = true := by
    unfold isLeap
    simp only [decide_eq_true_eq]
    omega
  unfold ymd2ord
  simp only [hleap, daysBeforeYear_cycles a hb hc (Nat.le_refl 3)]
  have : daysBeforeMonth true 12 = 335 := rfl
  omega

/-- **A day number is read back from its date.** -/
theorem ymd2ord_ord2ymd (n : Nat) : ymd2ord (ord2ymd n) = n := by
  -- the quotients and remainders of the three cycles
  obtain ⟨a, r, hr, rfl⟩ : ∃ a r, r < 146097 ∧ n = a * 146097 + r :=
    ⟨n / 146097, n % 146097, by omega, by omega⟩
  have ha : (a * 146097 + r) / 146097 = a := by omega
  have hra : (a * 146097 + r) % 146097 = r := by omega
  unfold ord2ymd
  simp only [ha, hra]
  split
  · rename_i h
    by_cases h100 : r / 36524 = 4
    · have e : a * 400 + r / 36524 * 100 + r % 36524 / 1461 * 4 + r % 36524 % 1461 / 365 + 1 - 1 =
          a * 400 + 3 * 100 + 24 * 4 + 3 + 1 := by omega
      rw [e, ymd2ord_leap_end a (b := 3) (c := 24) (by decide) (by decide) (by decide)]
      omega
    · have h1 : r % 36524 % 1461 / 365 = 4 := by omega
      have e : a * 400 + r / 36524 * 100 + r % 36524 / 1461 * 4 + r % 36524 % 1461 / 365 + 1 - 1 =
          a * 400 + r / 36524 * 100 + r % 36524 / 1461 * 4 + 3 + 1 := by omega
      rw [e, ymd2ord_leap_end a (by omega) (by omega) (by omega)]
      omega
  · rename_i h
    simp only [not_or] at h
    have hd : r % 36524 % 1461 % 365 < 365 := by omega
    obtain ⟨-, -, hmd⟩ := monthDay_spec
      (isLeap (a * 400 + r / 36524 * 100 + r % 36524 / 1461 * 4 + r % 36524 % 1461 / 365 + 1)) hd
    unfold ymd2ord
    simp only
    rw [daysBeforeYear_cycles a (by omega) (by omega) (by omega)]
    omega

/-- The fields of a date stay below the bounds of their printed widths. -/
theorem ord2ymd_bounds {n : Nat} (h : n < 3652059) :
    (ord2ymd n).1 < 10000 ∧ (ord2ymd n).2.1 < 100 ∧ (ord2ymd n).2.2 < 100 := by
  unfold ord2ymd
  simp only
  split
  · exact ⟨by omega, by simp, by simp⟩
  · obtain ⟨hm, hd, -⟩ := monthDay_spec
      (isLeap (n / 146097 * 400 + n % 146097 / 36524 * 100 + n % 146097 % 36524 / 1461 * 4 +
        n % 146097 % 36524 % 1461 / 365 + 1))
      (n := n % 146097 % 36524 % 1461 % 365) (by omega)
    exact ⟨by omega, Nat.lt_of_le_of_lt hm (by decide), Nat.lt_of_le_of_lt hd (by decide)⟩

/-! ## ISO-8601 text -/

/-- Microseconds in a day. -/
def dayMicros : Nat := 86400000000

/-- Microseconds from `0001-01-01` to the end of year 9999: the range of `datetime`. -/
def maxMicros : Nat := 3652059 * dayMicros

theorem zero_lt_maxMicros : 0 < maxMicros := by decide

theorem two_lt_maxMicros : 2 < maxMicros := by decide

/-- `isoformat` of the UTC reading of an instant, in characters. -/
def isoChars (t : Nat) : List Char :=
  let date := ord2ymd (t / dayMicros)
  let seconds := t % dayMicros / 1000000
  let micros := t % 1000000
  pad4 date.1 ++ '-' :: (pad2 date.2.1 ++ '-' :: (pad2 date.2.2 ++ 'T' ::
    (pad2 (seconds / 3600) ++ ':' :: (pad2 (seconds / 60 % 60) ++ ':' :: (pad2 (seconds % 60) ++
      ((if micros = 0 then [] else '.' :: pad6 micros) ++ ['+', '0', '0', ':', '0', '0']))))))

/-- The wall-clock part of that text: date, time and, unless they are zero, the microseconds. -/
def clockChars (t : Nat) : List Char :=
  let date := ord2ymd (t / dayMicros)
  let seconds := t % dayMicros / 1000000
  let micros := t % 1000000
  pad4 date.1 ++ '-' :: (pad2 date.2.1 ++ '-' :: (pad2 date.2.2 ++ 'T' ::
    (pad2 (seconds / 3600) ++ ':' :: (pad2 (seconds / 60 % 60) ++ ':' :: (pad2 (seconds % 60) ++
      (if micros = 0 then [] else '.' :: pad6 micros))))))

theorem isoChars_eq (t : Nat) : isoChars t = clockChars t ++ ['+', '0', '0', ':', '0', '0'] := by
  simp only [isoChars, clockChars, List.append_assoc, List.cons_append]

/-- What may follow a wall-clock reading. -/
def NoFraction (s : List Char) : Prop := ∀ rest, s ≠ '.' :: rest

theorem fraction_inj {m n : Nat} {s s' : List Char} (hm : m < 1000000) (hn : n < 1000000)
    (hs : NoFraction s) (hs' : NoFraction s')
    (h : (if m = 0 then [] else '.' :: pad6 m) ++ s = (if n = 0 then [] else '.' :: pad6 n) ++ s') :
    m = n ∧ s = s' := by
  by_cases hm0 : m = 0 <;> by_cases hn0 : n = 0
  · rw [if_pos hm0, if_pos hn0] at h
    exact ⟨hm0.trans hn0.symm, h⟩
  · rw [if_pos hm0, if_neg hn0] at h
    exact absurd h (hs _)
  · rw [if_neg hm0, if_pos hn0] at h
    exact absurd h.symm (hs' _)
  · rw [if_neg hm0, if_neg hn0] at h
    obtain ⟨hp, h⟩ := List.append_inj (List.cons.inj h).2 (by simp [pad6])
    exact ⟨pad6_inj hm hn hp, h⟩

/-- **Within the supported years the wall-clock part of a text determines the reading**, and what
follows it. -/
theorem clockChars_append_inj {t u : Nat} {s s' : List Char} (ht : t < maxMicros)
    (hu : u < maxMicros) (hs : NoFraction s) (hs' : NoFraction s')
    (h : clockChars t ++ s = clockChars u ++ s') : t = u ∧ s = s' := by
  have hday : ∀ x, x < maxMicros → x / dayMicros < 3652059 := by
    intro x hx
    unfold maxMicros dayMicros at *
    omega
  obtain ⟨ty, tm, td⟩ := ord2ymd_bounds (hday t ht)
  obtain ⟨uy, um, ud⟩ := ord2ymd_bounds (hday u hu)
  simp only [clockChars, List.append_assoc, List.cons_append] at h
  obtain ⟨hy, h⟩ := List.append_inj h (by simp [pad4])
  obtain ⟨hmo, h⟩ := List.append_inj (List.cons.inj h).2 (by simp [pad2])
  obtain ⟨hd, h⟩ := List.append_inj (List.cons.inj h).2 (by simp [pad2])
  obtain ⟨hh, h⟩ := List.append_inj (List.cons.inj h).2 (by simp [pad2])
  obtain ⟨hmi, h⟩ := List.append_inj (List.cons.inj h).2 (by simp [pad2])
  obtain ⟨hsec, h⟩ := List.append_inj (List.cons.inj h).2 (by simp [pad2])
  have edate : ord2ymd (t / dayMicros) = ord2ymd (u / dayMicros) :=
    Prod.ext (pad4_inj ty uy hy) (Prod.ext (pad2_inj tm um hmo) (pad2_inj td ud hd))
  have eday : t / dayMicros = u / dayMicros := by
    rw [← ymd2ord_ord2ymd (t / dayMicros), edate, ymd2ord_ord2ymd]
  have e1 := pad2_inj (by unfold dayMicros; omega) (by unfold dayMicros; omega) hh
  have e2 := pad2_inj (by omega) (by omega) hmi
  have e3 := pad2_inj (by omega) (by omega) hsec
  obtain ⟨e4, e5⟩ := fraction_inj (by omega) (by omega) hs hs' h
  refine ⟨?_, e5⟩
  unfold dayMicros at eday e1 e2 e3
  omega

/-- A `datetime`: the wall-clock reading in microseconds since `0001-01-01` and the UTC offset,
absent for a naive value. Its UTC reading lies in the supported years. -/
structure DateTime where
  wall : Int
  utcoffset : Option Int
  inRange : 0 ≤ wall - utcoffset.getD 0 ∧ wall - utcoffset.getD 0 < maxMicros
  deriving DecidableEq

namespace DateTime

/-- The microsecond a date-time denotes; a naive value is read as UTC. -/
def instant (d : DateTime) : Nat := (d.wall - d.utcoffset.getD 0).toNat

/-- The UTC date-time of an instant. -/
def ofInstant (t : Nat) (h : t < maxMicros) : DateTime where
  wall := t
  utcoffset := some 0
  inRange := by simp only [Option.getD_some]; omega

/-- `isoformat` of the UTC reading. -/
def isoformat (d : DateTime) : String := String.ofList (isoChars d.instant)

end DateTime

/-!
## Date-times as JSON carries them

A `Timestamp` is a wall-clock reading with a UTC offset in whole minutes, absent for a naive value:
what a date-time read from JSON text can be. `text` is how it is written, `Z` standing for the offset
zero; `text_inj`: the text determines the value.
-/

/-- Minutes in a day. -/
def dayMinutes : Nat := 1440

structure Timestamp where
  wall : Nat
  offset : Option Int := some 0
  wall_lt : wall < maxMicros := by decide
  offset_lt : ∀ m ∈ offset, m.natAbs < dayMinutes := by decide
  deriving DecidableEq

/-- Hours and minutes. -/
def hourChars (m : Nat) : List Char := pad2 (m / 60) ++ ':' :: pad2 (m % 60)

/-- An offset in minutes. -/
def offsetChars (m : Int) : List Char :=
  if m = 0 then ['Z'] else (if m < 0 then '-' else '+') :: hourChars m.natAbs

namespace Timestamp

def text (t : Timestamp) : String :=
  String.ofList (clockChars t.wall ++ match t.offset with
    | none => []
    | some m => offsetChars m)

end Timestamp

/-! ### The text determines the value -/

theorem hourChars_inj {m n : Nat} (hm : m < dayMinutes) (hn : n < dayMinutes)
    (h : hourChars m = hourChars n) : m = n := by
  unfold dayMinutes at hm hn
  obtain ⟨hhours, h⟩ := List.append_inj h (by simp [pad2])
  have h1 := pad2_inj (by omega) (by omega) hhours
  have h2 := pad2_inj (by omega) (by omega) (List.cons.inj h).2
  omega

theorem offsetChars_zero : offsetChars 0 = ['Z'] := rfl

theorem offsetChars_neg {m : Int} (h : m < 0) : offsetChars m = '-' :: hourChars m.natAbs := by
  rw [offsetChars, if_neg (by omega), if_pos h]

theorem offsetChars_pos {m : Int} (h : 0 < m) : offsetChars m = '+' :: hourChars m.natAbs := by
  rw [offsetChars, if_neg (by omega), if_neg (by omega)]

theorem offsetChars_cons (m : Int) :
    ∃ c rest, offsetChars m = c :: rest ∧ (c = 'Z' ∨ c = '-' ∨ c = '+') := by
  rcases lt_trichotomy m 0 with h | rfl | h
  · exact ⟨_, _, offsetChars_neg h, .inr (.inl rfl)⟩
  · exact ⟨_, _, offsetChars_zero, .inl rfl⟩
  · exact ⟨_, _, offsetChars_pos h, .inr (.inr rfl)⟩

theorem offsetChars_inj {m n : Int} (hm : m.natAbs < dayMinutes) (hn : n.natAbs < dayMinutes)
    (h : offsetChars m = offsetChars n) : m = n := by
  -- the first character is the sign, and the rest the size
  rcases lt_trichotomy m 0 with h1 | rfl | h1 <;> rcases lt_trichotomy n 0 with h2 | rfl | h2
  · rw [offsetChars_neg h1, offsetChars_neg h2] at h
    have := hourChars_inj hm hn (List.cons.inj h).2
    omega
  · rw [offsetChars_neg h1, offsetChars_zero] at h
    exact absurd (List.cons.inj h).1 (by decide)
  · rw [offsetChars_neg h1, offsetChars_pos h2] at h
    exact absurd (List.cons.inj h).1 (by decide)
  · rw [offsetChars_zero, offsetChars_neg h2] at h
    exact absurd (List.cons.inj h).1 (by decide)
  · rfl
  · rw [offsetChars_zero, offsetChars_pos h2] at h
    exact absurd (List.cons.inj h).1 (by decide)
  · rw [offsetChars_pos h1, offsetChars_neg h2] at h
    exact absurd (List.cons.inj h).1 (by decide)
  · rw [offsetChars_pos h1, offsetChars_zero] at h
    exact absurd (List.cons.inj h).1 (by decide)
  · rw [offsetChars_pos h1, offsetChars_pos h2] at h
    have := hourChars_inj hm hn (List.cons.inj h).2
    omega

theorem noFraction_nil : NoFraction [] := by simp [NoFraction]

theorem noFraction_offsetChars (m : Int) : NoFraction (offsetChars m) := by
  intro rest h
  obtain ⟨c, _, hc, hsign⟩ := offsetChars_cons m
  rw [hc] at h
  obtain rfl := (List.cons.inj h).1
  revert hsign
  decide

/-- **The text of a timestamp determines it.** -/
theorem Timestamp.text_inj {t u : Timestamp} (h : t.text = u.text) : t = u := by
  obtain ⟨w, o, hw, ho⟩ := t
  obtain ⟨w', o', hw', ho'⟩ := u
  have hchars := String.ofList_injective h
  cases o with
  | none =>
    cases o' with
    | none =>
      obtain ⟨rfl, -⟩ := clockChars_append_inj hw hw' noFraction_nil noFraction_nil hchars
      rfl
    | some n =>
      have := (clockChars_append_inj hw hw' noFraction_nil (noFraction_offsetChars n) hchars).2
      obtain ⟨_, _, hc, -⟩ := offsetChars_cons n
      rw [hc] at this
      exact absurd this (by simp)
  | some m =>
    cases o' with
    | none =>
      have := (clockChars_append_inj hw hw' (noFraction_offsetChars m) noFraction_nil hchars).2
      obtain ⟨_, _, hc, -⟩ := offsetChars_cons m
      rw [hc] at this
      exact absurd this (by simp)
    | some n =>
      obtain ⟨rfl, hsuffix⟩ := clockChars_append_inj hw hw' (noFraction_offsetChars m)
        (noFraction_offsetChars n) hchars
      obtain rfl := offsetChars_inj (ho m rfl) (ho' n rfl) hsuffix
      rfl

end Lib.Calendar
