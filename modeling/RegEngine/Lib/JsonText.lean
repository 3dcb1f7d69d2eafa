import RegEngine.Lib.DecimalText

/-!
# The text of a JSON value determines it

* `readChar` reads an escaped character back, so a quoted text is determined by its characters.
* `render_injective`, `dumps_eq_iff`: a value is followed by nothing that could continue its text, so
  the text of an array or of an object is cut into those of its members in one way.
* `get?_sortKeys`: the fields of an object with its keys in order.
-/

namespace Lib

open Lib.Text

namespace Json

/-! ## Quoted texts -/

/-- The number of a hexadecimal digit. -/
def hexVal (c : Char) : Nat := if c.isDigit then c.toNat - 48 else c.toNat - 87

/-- Four hexadecimal digits. -/
def hex4 (a b c d : Char) : Nat := 4096 * hexVal a + 256 * hexVal b + 16 * hexVal c + hexVal d

/-- The character after a backslash, and the rest. -/
def readEscape : List Char → Option (Char × List Char)
  | 'n' :: r => some ('\n', r)
  | 'r' :: r => some ('\r', r)
  | 't' :: r => some ('\t', r)
  | 'b' :: r => some (Char.ofNat 8, r)
  | 'f' :: r => some (Char.ofNat 12, r)
  | 'u' :: a :: b :: c :: d :: r =>
    let n := hex4 a b c d
    if 0xd800 ≤ n ∧ n < 0xdc00 then
      match r with
      | '\\' :: 'u' :: a' :: b' :: c' :: d' :: r =>
        some (Char.ofNat (0x10000 + 0x400 * (n - 0xd800) + (hex4 a' b' c' d' - 0xdc00)), r)
      | _ => none
    else some (Char.ofNat n, r)
  | c :: r => some (c, r)
  | [] => none

/-- The first character of an escaped text, and the rest. -/
def readChar : List Char → Option (Char × List Char)
  | [] => none
  | c :: r => if c = '\\' then readEscape r else some (c, r)

theorem hexVal_digitChar : ∀ d, d < 16 → hexVal (Nat.digitChar d) = d := by decide

theorem hex4_escapeUnit {n : Nat} (h : n < 0x10000) :
    ∃ a b c d, escapeUnit n = ['\\', 'u', a, b, c, d] ∧ hex4 a b c d = n := by
  refine ⟨_, _, _, _, rfl, ?_⟩
  unfold hex4
  rw [hexVal_digitChar _ (by omega), hexVal_digitChar _ (by omega), hexVal_digitChar _ (by omega),
    hexVal_digitChar _ (by omega)]
  simp only [Nat.reduceSub, Nat.reducePow, Nat.div_one]
  omega

theorem not_surrogate (c : Char) : ¬ (0xd800 ≤ c.toNat ∧ c.toNat < 0xdc00) := by
  have := c.valid
  have hval : c.toNat = c.val.toNat := rfl
  rcases this with h | h <;> omega

/-- **An escaped character is read back**, whatever follows it. -/
theorem readChar_escapeChar (c : Char) (r : List Char) :
    readChar (escapeChar c ++ r) = some (c, r) := by
  have hsmall : ∀ n, c.toNat = n → Char.ofNat n = c := fun n hn => hn ▸ Char.ofNat_toNat c
  unfold escapeChar
  by_cases hq : c = '"'
  · rw [if_pos hq, hq]
    rfl
  by_cases hb : c = '\\'
  · rw [if_neg hq, if_pos hb, hb]
    rfl
  by_cases hn : c = '\n'
  · rw [if_neg hq, if_neg hb, if_pos hn, hn]
    rfl
  by_cases hr : c = '\r'
  · rw [if_neg hq, if_neg hb, if_neg hn, if_pos hr, hr]
    rfl
  by_cases ht : c = '\t'
  · rw [if_neg hq, if_neg hb, if_neg hn, if_neg hr, if_pos ht, ht]
    rfl
  rw [if_neg hq, if_neg hb, if_neg hn, if_neg hr, if_neg ht]
  by_cases h8 : c.toNat = 8
  · rw [if_pos h8, ← hsmall 8 h8]
    rfl
  by_cases h12 : c.toNat = 12
  · rw [if_neg h8, if_pos h12, ← hsmall 12 h12]
    rfl
  rw [if_neg h8, if_neg h12]
  by_cases hplain : 32 ≤ c.toNat ∧ c.toNat ≤ 126
  · rw [if_pos hplain]
    exact if_neg hb
  by_cases hbmp : c.toNat < 0x10000
  · rw [if_neg hplain, if_pos hbmp]
    obtain ⟨w, x, y, z, hunit, hval⟩ := hex4_escapeUnit hbmp
    rw [hunit]
    simp only [List.cons_append, List.nil_append, readChar, readEscape, hval,
      if_neg (not_surrogate c), Char.ofNat_toNat, if_true]
  · rw [if_neg hplain, if_neg hbmp]
    have hlt : c.toNat < 0x110000 := by
      have := c.valid
      have hval : c.toNat = c.val.toNat := rfl
      rcases this with h | h <;> omega
    obtain ⟨w, x, y, z, hunit, hval⟩ :=
      hex4_escapeUnit (n := 0xd800 + (c.toNat - 0x10000) / 0x400) (by omega)
    obtain ⟨w', x', y', z', hunit', hval'⟩ :=
      hex4_escapeUnit (n := 0xdc00 + (c.toNat - 0x10000) % 0x400) (by omega)
    rw [hunit, hunit']
    simp only [List.cons_append, List.nil_append, readChar, readEscape, hval, hval', if_true]
    rw [if_pos (by omega)]
    have hback : 0x10000 + 0x400 * (0xd800 + (c.toNat - 0x10000) / 0x400 - 0xd800) +
        (0xdc00 + (c.toNat - 0x10000) % 0x400 - 0xdc00) = c.toNat := by omega
    rw [hback, Char.ofNat_toNat]

/-- No escaped character begins with a quote. -/
theorem escapeChar_ne_quote {c : Char} {r s : List Char} : escapeChar c ++ r ≠ '"' :: s := by
  intro h
  have hread := readChar_escapeChar c r
  rw [h] at hread
  obtain ⟨rfl, -⟩ := Prod.mk.inj (Option.some.inj hread)
  exact absurd (List.cons.inj h).1 (by decide)

/-- A quoted text ends at its closing quote. -/
theorem escaped_append_inj : ∀ {l m r s : List Char},
    l.flatMap escapeChar ++ '"' :: r = m.flatMap escapeChar ++ '"' :: s → l = m ∧ r = s
  | [], [], r, s, h => ⟨rfl, (List.cons.inj h).2⟩
  | [], c :: m, r, s, h => by
    rw [List.flatMap_cons, List.append_assoc] at h
    exact absurd h.symm escapeChar_ne_quote
  | c :: l, [], r, s, h => by
    rw [List.flatMap_cons, List.append_assoc] at h
    exact absurd h escapeChar_ne_quote
  | c :: l, d :: m, r, s, h => by
    rw [List.flatMap_cons, List.flatMap_cons, List.append_assoc, List.append_assoc] at h
    have hread := congrArg readChar h
    rw [readChar_escapeChar, readChar_escapeChar] at hread
    obtain ⟨rfl, hrest⟩ := Prod.mk.inj (Option.some.inj hread)
    obtain ⟨rfl, rfl⟩ := escaped_append_inj hrest
    exact ⟨rfl, rfl⟩

theorem quote_toList (s : String) : (quote s).toList = '"' :: (s.toList.flatMap escapeChar ++ ['"']) := by
  unfold quote
  simp only [String.toList_append, String.toList_ofList]
  rfl

theorem quote_append_inj {s t : String} {r r' : List Char}
    (h : (quote s).toList ++ r = (quote t).toList ++ r') : s = t ∧ r = r' := by
  rw [quote_toList, quote_toList, List.cons_append, List.cons_append, List.append_assoc,
    List.append_assoc] at h
  obtain ⟨hl, hr⟩ := escaped_append_inj (List.cons.inj h).2
  exact ⟨String.toList_inj.1 hl, hr⟩

/-! ## Values -/

/-- What a value's text begins with, apart from its type. -/
def kind : Json → Nat
  | null => 0
  | bool true => 1
  | bool false => 2
  | int _ | float _ => 3
  | str _ => 4
  | arr _ => 5
  | obj _ => 6

/-- The kind of the values that begin with a character. -/
def kindOf (c : Char) : Option Nat :=
  if c = 'n' then some 0
  else if c = 't' then some 1
  else if c = 'f' then some 2
  else if Decimal.isNumeral c then some 3
  else if c = '"' then some 4
  else if c = '[' then some 5
  else if c = '\x7b' then some 6
  else none

theorem kindOf_numeral {c : Char} (h : Decimal.isNumeral c = true) : kindOf c = some 3 := by
  have hne : c ≠ 'n' ∧ c ≠ 't' ∧ c ≠ 'f' := by
    refine ⟨?_, ?_, ?_⟩ <;>
    · rintro rfl
      exact absurd h (by decide)
  rw [kindOf, if_neg hne.1, if_neg hne.2.1, if_neg hne.2.2, if_pos h]

theorem render_cons (j : Json) : ∃ c rest, j.render.toList = c :: rest ∧ kindOf c = some j.kind := by
  have hnumeral : ∀ l : List Char, l ≠ [] → (∀ c ∈ l, Decimal.isNumeral c = true) →
      ∃ c rest, l = c :: rest ∧ kindOf c = some 3 := by
    intro l hne hall
    cases l with
    | nil => exact absurd rfl hne
    | cons c rest => exact ⟨c, rest, rfl, kindOf_numeral (hall c List.mem_cons_self)⟩
  cases j with
  | null => exact ⟨_, _, rfl, rfl⟩
  | bool b => cases b <;> exact ⟨_, _, rfl, rfl⟩
  | int n =>
    refine hnumeral _ ?_ fun c => isNumeral_toString
    intro h
    rw [render, toList_toString_int] at h
    split at h
    · cases h
    · exact Nat.toDigits_ne_nil h
  | float d =>
    refine hnumeral _ ?_ fun c => Decimal.isNumeral_repr
    intro h
    rw [render] at h
    rcases d.dot_or_e_mem_repr with hc | hc
    · rw [h] at hc
      cases hc
    · rw [h] at hc
      cases hc
  | str s => exact ⟨_, _, quote_toList s, rfl⟩
  | arr l =>
    refine ⟨'[', (renderItems l ++ "]").toList, ?_, rfl⟩
    simp only [render, String.toList_append]
    rfl
  | obj fields =>
    refine ⟨'\x7b', (renderFields fields ++ "\x7d").toList, ?_, rfl⟩
    simp only [render, String.toList_append]
    rfl

theorem kind_eq {a b : Json} {r s : List Char}
    (h : a.render.toList ++ r = b.render.toList ++ s) : a.kind = b.kind := by
  obtain ⟨c, rest, hc, hk⟩ := render_cons a
  obtain ⟨c', rest', hc', hk'⟩ := render_cons b
  rw [hc, hc'] at h
  rw [(List.cons.inj h).1] at hk
  exact Option.some.inj (hk.symm.trans hk')

/-- No value begins with the end of a list or of an object. -/
theorem render_ne_close {j : Json} {c : Char} {r s : List Char} (hc : kindOf c = none) :
    c :: r ≠ j.render.toList ++ s := by
  obtain ⟨c', rest, hj, hk⟩ := render_cons j
  rw [hj]
  intro h
  rw [← (List.cons.inj h).1, hc] at hk
  cases hk

theorem renderItems_cons (a b : Json) (l : List Json) (r : List Char) :
    (renderItems (a :: b :: l)).toList ++ r =
      a.render.toList ++ ',' :: ((renderItems (b :: l)).toList ++ r) := by
  simp only [renderItems, String.toList_append, List.append_assoc]
  rfl

theorem renderFields_single (k : String) (a : Json) (r : List Char) :
    (renderFields [(k, a)]).toList ++ r = (quote k).toList ++ ':' :: (a.render.toList ++ r) := by
  simp only [renderFields, String.toList_append, List.append_assoc]
  rfl

theorem renderFields_cons (k : String) (a : Json) (f : String × Json) (l : List (String × Json))
    (r : List Char) :
    (renderFields ((k, a) :: f :: l)).toList ++ r = (quote k).toList ++ ':' ::
      (a.render.toList ++ ',' :: ((renderFields (f :: l)).toList ++ r)) := by
  simp only [renderFields, String.toList_append, List.append_assoc]
  rfl

theorem render_arr (l : List Json) (r : List Char) :
    (arr l).render.toList ++ r = '[' :: ((renderItems l).toList ++ ']' :: r) := by
  simp only [render, String.toList_append, List.append_assoc]
  rfl

theorem render_obj (l : List (String × Json)) (r : List Char) :
    (obj l).render.toList ++ r = '\x7b' :: ((renderFields l).toList ++ '\x7d' :: r) := by
  simp only [render, String.toList_append, List.append_assoc]
  rfl

/-- A value's text determines it, and where it ends, when what follows does not go on with a
numeral. -/
def Determined (a : Json) : Prop := ∀ {b : Json} {r s : List Char}, Stops r → Stops s →
  a.render.toList ++ r = b.render.toList ++ s → a = b ∧ r = s

/-- What follows the text of a member: the end of the array, or the other members. -/
def moreItems (l : List Json) (r : List Char) : List Char :=
  match l with
  | [] => ']' :: r
  | a :: l => ',' :: ((renderItems (a :: l)).toList ++ ']' :: r)

theorem stops_moreItems (l : List Json) (r : List Char) : Stops (moreItems l r) := by
  cases l with
  | nil => exact stops_cons rfl
  | cons a l => exact stops_cons rfl

theorem renderItems_eq (a : Json) (l : List Json) (r : List Char) :
    (renderItems (a :: l)).toList ++ ']' :: r = a.render.toList ++ moreItems l r := by
  cases l with
  | nil => rfl
  | cons b l => exact renderItems_cons a b l _

theorem renderItems_append_inj {l m : List Json} {r s : List Char} (hl : ∀ a ∈ l, Determined a)
    (h : (renderItems l).toList ++ ']' :: r = (renderItems m).toList ++ ']' :: s) :
    l = m ∧ r = s := by
  have hopen : ∀ (b : Json) (m : List Json) (r s : List Char),
      (renderItems []).toList ++ ']' :: r ≠ (renderItems (b :: m)).toList ++ ']' :: s := by
    intro b m r s h
    rw [renderItems_eq] at h
    exact render_ne_close rfl h
  induction l generalizing m with
  | nil =>
    cases m with
    | nil => exact ⟨rfl, (List.cons.inj h).2⟩
    | cons b m => exact absurd h (hopen b m r s)
  | cons a l ih =>
    cases m with
    | nil => exact absurd h.symm (hopen a l s r)
    | cons b m =>
      rw [renderItems_eq, renderItems_eq] at h
      obtain ⟨rfl, hmore⟩ :=
        hl a List.mem_cons_self (stops_moreItems l r) (stops_moreItems m s) h
      cases l with
      | nil =>
        cases m with
        | nil => exact ⟨rfl, (List.cons.inj hmore).2⟩
        | cons b m => exact absurd (List.cons.inj hmore).1 (by decide)
      | cons a' l =>
        cases m with
        | nil => exact absurd (List.cons.inj hmore).1 (by decide)
        | cons b m =>
          obtain ⟨hlm, rfl⟩ := ih (fun x hx => hl x (List.mem_cons_of_mem _ hx))
            (List.cons.inj hmore).2
          exact ⟨congrArg (a :: ·) hlm, rfl⟩

/-- The first field of an object's text, and what follows it. -/
theorem field_inj {f g : String × Json} {r s : List Char} (hf : Determined f.2) (hr : Stops r)
    (hs : Stops s)
    (h : (quote f.1).toList ++ ':' :: (f.2.render.toList ++ r) =
      (quote g.1).toList ++ ':' :: (g.2.render.toList ++ s)) : f = g ∧ r = s := by
  obtain ⟨hk, hvalue⟩ := quote_append_inj h
  obtain ⟨ha, hrest⟩ := hf hr hs (List.cons.inj hvalue).2
  exact ⟨Prod.ext hk ha, hrest⟩

/-- What follows the text of a field: the end of the object, or the other fields. -/
def moreFields (l : List (String × Json)) (r : List Char) : List Char :=
  match l with
  | [] => '\x7d' :: r
  | f :: l => ',' :: ((renderFields (f :: l)).toList ++ '\x7d' :: r)

theorem stops_moreFields (l : List (String × Json)) (r : List Char) : Stops (moreFields l r) := by
  cases l with
  | nil => exact stops_cons rfl
  | cons f l => exact stops_cons rfl

theorem renderFields_eq (f : String × Json) (l : List (String × Json)) (r : List Char) :
    (renderFields (f :: l)).toList ++ '\x7d' :: r =
      (quote f.1).toList ++ ':' :: (f.2.render.toList ++ moreFields l r) := by
  cases l with
  | nil => exact renderFields_single f.1 f.2 _
  | cons g l => exact renderFields_cons f.1 f.2 g l _

theorem renderFields_append_inj {l m : List (String × Json)} {r s : List Char}
    (hl : ∀ f ∈ l, Determined f.2)
    (h : (renderFields l).toList ++ '\x7d' :: r = (renderFields m).toList ++ '\x7d' :: s) :
    l = m ∧ r = s := by
  have hopen : ∀ (g : String × Json) (m : List (String × Json)) (r s : List Char),
      (renderFields []).toList ++ '\x7d' :: r ≠ (renderFields (g :: m)).toList ++ '\x7d' :: s := by
    intro g m r s h
    rw [renderFields_eq, quote_toList] at h
    exact absurd (List.cons.inj h).1 (by decide)
  induction l generalizing m with
  | nil =>
    cases m with
    | nil => exact ⟨rfl, (List.cons.inj h).2⟩
    | cons g m => exact absurd h (hopen g m r s)
  | cons f l ih =>
    cases m with
    | nil => exact absurd h.symm (hopen f l s r)
    | cons g m =>
      rw [renderFields_eq, renderFields_eq] at h
      obtain ⟨rfl, hmore⟩ :=
        field_inj (hl f List.mem_cons_self) (stops_moreFields l r) (stops_moreFields m s) h
      cases l with
      | nil =>
        cases m with
        | nil => exact ⟨rfl, (List.cons.inj hmore).2⟩
        | cons g m => exact absurd (List.cons.inj hmore).1 (by decide)
      | cons f' l =>
        cases m with
        | nil => exact absurd (List.cons.inj hmore).1 (by decide)
        | cons g m =>
          obtain ⟨hlm, rfl⟩ := ih (fun x hx => hl x (List.mem_cons_of_mem _ hx))
            (List.cons.inj hmore).2
          exact ⟨congrArg (f :: ·) hlm, rfl⟩

theorem determined_null : Determined null := by
  intro b r s _ _ h
  have hk := kind_eq h
  cases b with
  | null => exact ⟨rfl, List.append_cancel_left h⟩
  | bool c => cases c <;> cases hk
  | _ => cases hk

theorem determined_bool (c : Bool) : Determined (bool c) := by
  intro b r s _ _ h
  have hk := kind_eq h
  cases b with
  | bool d =>
    cases c <;> cases d
    · exact ⟨rfl, List.append_cancel_left h⟩
    · cases hk
    · cases hk
    · exact ⟨rfl, List.append_cancel_left h⟩
  | _ => cases c <;> cases hk

theorem determined_int (n : Int) : Determined (int n) := by
  intro b r s hr hs h
  have hk := kind_eq h
  cases b with
  | int m =>
    obtain ⟨hnm, rfl⟩ := numeral_append_inj (fun _ => isNumeral_toString)
      (fun _ => isNumeral_toString) hr hs h
    exact ⟨congrArg int (toString_int_inj hnm), rfl⟩
  | float d =>
    obtain ⟨hnd, -⟩ := numeral_append_inj (fun _ => isNumeral_toString)
      (fun _ => Decimal.isNumeral_repr) hr hs h
    exact absurd hnd (toString_ne_repr n d)
  | bool c => cases c <;> cases hk
  | _ => cases hk

theorem determined_float (d : Decimal) : Determined (float d) := by
  intro b r s hr hs h
  have hk := kind_eq h
  cases b with
  | int n =>
    obtain ⟨hdn, -⟩ := numeral_append_inj (fun _ => Decimal.isNumeral_repr)
      (fun _ => isNumeral_toString) hr hs h
    exact absurd hdn.symm (toString_ne_repr n d)
  | float e =>
    obtain ⟨hde, rfl⟩ := numeral_append_inj (fun _ => Decimal.isNumeral_repr)
      (fun _ => Decimal.isNumeral_repr) hr hs h
    exact ⟨congrArg float (Decimal.repr_inj (String.toList_inj.1 hde)), rfl⟩
  | bool c => cases c <;> cases hk
  | _ => cases hk

theorem determined_str (t : String) : Determined (str t) := by
  intro b r s _ _ h
  have hk := kind_eq h
  cases b with
  | str u =>
    obtain ⟨rfl, rfl⟩ := quote_append_inj h
    exact ⟨rfl, rfl⟩
  | bool c => cases c <;> cases hk
  | _ => cases hk

theorem determined_arr {l : List Json} (hl : ∀ a ∈ l, Determined a) : Determined (arr l) := by
  intro b r s _ _ h
  have hk := kind_eq h
  cases b with
  | arr m =>
    rw [render_arr, render_arr] at h
    obtain ⟨rfl, rfl⟩ := renderItems_append_inj hl (List.cons.inj h).2
    exact ⟨rfl, rfl⟩
  | bool c => cases c <;> cases hk
  | _ => cases hk

theorem determined_obj {l : List (String × Json)} (hl : ∀ f ∈ l, Determined f.2) :
    Determined (obj l) := by
  intro b r s _ _ h
  have hk := kind_eq h
  cases b with
  | obj m =>
    rw [render_obj, render_obj] at h
    obtain ⟨rfl, rfl⟩ := renderFields_append_inj hl (List.cons.inj h).2
    exact ⟨rfl, rfl⟩
  | bool c => cases c <;> cases hk
  | _ => cases hk

theorem determined : ∀ a : Json, Determined a
  | null => determined_null
  | bool c => determined_bool c
  | int n => determined_int n
  | float d => determined_float d
  | str t => determined_str t
  | arr l => determined_arr fun a ha =>
    have : sizeOf a < sizeOf l := List.sizeOf_lt_of_mem ha
    determined a
  | obj l => determined_obj fun f hf =>
    have : sizeOf f < sizeOf l := List.sizeOf_lt_of_mem hf
    determined f.2
termination_by a => sizeOf a
decreasing_by
  · simp only [arr.sizeOf_spec]
    omega
  · simp only [obj.sizeOf_spec]
    have hpair : sizeOf f.2 < sizeOf f := by
      cases f
      simp only [Prod.mk.sizeOf_spec]
      omega
    omega

/-- **Two values with one text are the same.** -/
theorem render_injective : Function.Injective render := by
  intro a b h
  exact (determined a stops_nil stops_nil (congrArg (String.toList · ++ []) h)).1

theorem dumps_eq_iff {a b : Json} : a.dumps = b.dumps ↔ a.sortKeys = b.sortKeys :=
  render_injective.eq_iff

/-! ## Fields of a value with its keys in order -/

theorem sortItems_eq_map (l : List Json) : sortItems l = l.map sortKeys := by
  induction l with
  | nil => rfl
  | cons a l ih => rw [sortItems, ih, List.map_cons]

theorem sortFields_eq_map (l : List (String × Json)) :
    sortFields l = l.map fun f => (f.1, sortKeys f.2) := by
  induction l with
  | nil => rfl
  | cons f l ih => rw [sortFields, ih, List.map_cons]

/-- A field is found by its key wherever it stands, when keys are distinct. -/
theorem get?_eq_some_iff {fields : List (String × Json)} (h : (fields.map (·.1)).Nodup)
    {k : String} {a : Json} : (obj fields).get? k = some a ↔ (k, a) ∈ fields := by
  simp only [get?, Option.map_eq_some_iff]
  constructor
  · rintro ⟨f, hf, rfl⟩
    obtain rfl : f.1 = k := by simpa using List.find?_some hf
    exact List.mem_of_find?_eq_some hf
  · intro hmem
    obtain ⟨f, hf⟩ := Option.isSome_iff_exists.1
      (List.find?_isSome.2 ⟨_, hmem, by simp⟩ : (fields.find? fun f => f.1 == k).isSome)
    have hk : f.1 = k := by simpa using List.find?_some hf
    obtain rfl := List.inj_on_of_nodup_map h (List.mem_of_find?_eq_some hf) hmem hk
    exact ⟨_, hf, rfl⟩

/-- **Putting keys in order changes no field.** -/
theorem get?_sortKeys {fields : List (String × Json)} (h : (fields.map (·.1)).Nodup)
    (k : String) : (obj fields).sortKeys.get? k = ((obj fields).get? k).map sortKeys := by
  have hperm := List.perm_insertionSort (fun f g : String × Json => f.1 ≤ g.1) (sortFields fields)
  have hkeys : (sortFields fields).map (·.1) = fields.map (·.1) := by
    rw [sortFields_eq_map, List.map_map]
    rfl
  have hnodup : (((sortFields fields).insertionSort fun f g => f.1 ≤ g.1).map (·.1)).Nodup := by
    rw [(hperm.map (·.1)).nodup_iff, hkeys]
    exact h
  apply Option.ext
  intro a
  rw [sortKeys, get?_eq_some_iff hnodup, hperm.mem_iff, sortFields_eq_map, List.mem_map,
    Option.map_eq_some_iff]
  constructor
  · rintro ⟨f, hf, heq⟩
    obtain ⟨rfl, rfl⟩ := Prod.mk.inj heq
    exact ⟨f.2, (get?_eq_some_iff h).2 hf, rfl⟩
  · rintro ⟨b, hb, rfl⟩
    exact ⟨_, (get?_eq_some_iff h).1 hb, rfl⟩

/-- Two objects that are the same value agree field by field. -/
theorem field_of_sortKeys_eq {fields fields' : List (String × Json)}
    (h : (fields.map (·.1)).Nodup) (h' : (fields'.map (·.1)).Nodup)
    (heq : (obj fields).sortKeys = (obj fields').sortKeys) (k : String) :
    ((obj fields).get? k).map sortKeys = ((obj fields').get? k).map sortKeys := by
  rw [← get?_sortKeys h, heq, get?_sortKeys h']

end Json

end Lib
