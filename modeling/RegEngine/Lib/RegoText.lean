import RegEngine.Lib.Lexer
import RegEngine.Lib.Rego
import RegEngine.Lib.Text

/-!
# The text of Rego terms as pieces

`Term.pieces` and `Literal.pieces` cut the source text of a term or a literal into code and the texts
that stand in string literals (`render_pieces`). A string constant is written with JSON escapes and
never ends its literal early (`closed_escape`); a text that is put between quotes as it is (`bareTexts`)
may.

* `Term.soundIff`, `Literal.soundIff`: a term or a literal is read as meant exactly when none of its
  bare texts ends the literal it is put in.
-/

namespace Lib.Rego

open Lib.Lexer

mutual

def Term.pieces : Term → List Piece
  | .lit (.str s) => [.literal (s.toList.flatMap Json.escapeChar)]
  | .lit v => [.code v.render.toList]
  | .quoted s => [.literal s.toList]
  | .input path => [.code (Term.input path).text.toList]
  | .var x => [.code x.toList]
  | .rule name => [.code name.toList]
  | .array items => .code "[".toList :: (Term.listPieces items ++ [.code "]".toList])
  | .set items => .code "\x7b".toList :: (Term.listPieces items ++ [.code "\x7d".toList])
  | .object fields => .code "\x7b\n".toList :: (Term.fieldPieces fields ++ [.code "\x7d".toList])
  | .sprintf format args =>
    .code "sprintf(".toList ::
      (format.pieces ++ .code ", ".toList :: (args.pieces ++ [.code ")".toList]))

def Term.listPieces : List Term → List Piece
  | [] => []
  | [t] => t.pieces
  | t :: ts => t.pieces ++ .code ", ".toList :: Term.listPieces ts

def Term.fieldPieces : List (String × Term) → List Piece
  | [] => []
  | (k, t) :: fs => .code "    ".toList :: .literal k.toList :: .code ": ".toList ::
      (t.pieces ++ .code ",\n".toList :: Term.fieldPieces fs)

end

def Literal.pieces : Literal → List Piece
  | holds t => t.pieces
  | cmp op l r => l.pieces ++ .code (" " ++ op.text ++ " ").toList :: r.pieces
  | mem l r => l.pieces ++ .code " in ".toList :: r.pieces
  | assign x t => .code (x ++ " := ").toList :: t.pieces

theorem render_append (a b : List Piece) : render (a ++ b) = render a ++ render b := by
  simp [render]

theorem render_cons (p : Piece) (ps : List Piece) : render (p :: ps) = p.text ++ render ps := rfl

theorem render_nil : render [] = [] := rfl

mutual

theorem Term.render_pieces : ∀ t : Term, render t.pieces = t.text.toList
  | .lit v => by
    cases v with
    | str s => simp [Term.pieces, render_cons, render_nil, Piece.text, Term.text, Json.render, Json.quote]
    | _ => simp [Term.pieces, render_cons, render_nil, Piece.text, Term.text]
  | .quoted s => by simp [Term.pieces, render_cons, render_nil, Piece.text, Term.text]
  | .input path => by simp [Term.pieces, render_cons, render_nil, Piece.text]
  | .var x => by simp [Term.pieces, render_cons, render_nil, Piece.text, Term.text]
  | .rule name => by simp [Term.pieces, render_cons, render_nil, Piece.text, Term.text]
  | .array items => by
    simp [Term.pieces, render_cons, render_append, render_nil, Piece.text, Term.text,
      Term.render_listPieces items]
  | .set items => by
    simp [Term.pieces, render_cons, render_append, render_nil, Piece.text, Term.text,
      Term.render_listPieces items]
  | .object fields => by
    simp [Term.pieces, render_cons, render_append, render_nil, Piece.text, Term.text,
      Term.render_fieldPieces fields]
  | .sprintf format args => by
    simp [Term.pieces, render_cons, render_append, render_nil, Piece.text, Term.text,
      Term.render_pieces format, Term.render_pieces args]

theorem Term.render_listPieces : ∀ ts : List Term,
    render (Term.listPieces ts) = (", ".intercalate (Term.texts ts)).toList
  | [] => rfl
  | [t] => by
    rw [Term.listPieces, Term.render_pieces t]
    simp [Term.texts]
  | t :: u :: ts => by
    show render (t.pieces ++ .code ", ".toList :: Term.listPieces (u :: ts)) = _
    rw [render_append, render_cons, Term.render_pieces t, Term.render_listPieces (u :: ts)]
    simp [Term.texts, Piece.text]

theorem Term.render_fieldPieces : ∀ fs : List (String × Term),
    render (Term.fieldPieces fs) = (String.join (Term.fieldTexts fs)).toList
  | [] => rfl
  | (k, t) :: fs => by
    rw [Term.fieldPieces, render_cons, render_cons, render_cons, render_append, render_cons,
      Term.render_pieces t, Term.render_fieldPieces fs]
    simp [Term.fieldTexts, Piece.text]

end

theorem Literal.render_pieces (l : Literal) : render l.pieces = l.text.toList := by
  cases l with
  | holds t => exact t.render_pieces
  | cmp op l r =>
    simp [Literal.pieces, Literal.text, render_append, render_cons, Term.render_pieces, Piece.text]
  | mem l r =>
    simp [Literal.pieces, Literal.text, render_append, render_cons, Term.render_pieces, Piece.text]
  | assign x t =>
    simp [Literal.pieces, Literal.text, render_cons, Term.render_pieces, Piece.text]

/-! ## Escaped texts -/

/-- The characters of an escape unit are safe inside a literal. -/
theorem closedFrom_escapeUnit (n : Nat) (cs : List Char) :
    closedFrom false (Json.escapeUnit n ++ cs) = closedFrom false cs := by
  have hdigit : ∀ k, k < 16 → Nat.digitChar k ≠ '"' ∧ Nat.digitChar k ≠ '\\' := by decide
  have hmod : ∀ k, Nat.digitChar (k % 16) ≠ '"' ∧ Nat.digitChar (k % 16) ≠ '\\' :=
    fun k => hdigit _ (Nat.mod_lt _ (by decide))
  simp [Json.escapeUnit, List.range_succ, closedFrom, hmod]

theorem closedFrom_escapeChar (c : Char) (cs : List Char) :
    closedFrom false (Json.escapeChar c ++ cs) = closedFrom false cs := by
  unfold Json.escapeChar
  split
  · simp [closedFrom]
  · rename_i hq
    split
    · simp [closedFrom]
    · rename_i hb
      repeat' split
      all_goals first
        | rw [closedFrom_escapeUnit]
        | rw [List.append_assoc, closedFrom_escapeUnit, closedFrom_escapeUnit]
        | simp [closedFrom, hq, hb]

/-- **A text with JSON escapes never ends its literal.** -/
theorem closed_escape (s : List Char) : Closed (s.flatMap Json.escapeChar) := by
  induction s with
  | nil => rfl
  | cons c cs ih =>
    rw [Closed, List.flatMap_cons, closedFrom_escapeChar]
    exact ih

/-! ## Numbers -/

theorem inert_toDigits (n : Nat) : Inert (Nat.toDigits 10 n) :=
  inert_of_forall (p := Char.isDigit) (by decide) (by decide) (by decide) fun _ hc =>
    Nat.isDigit_of_mem_toDigits (by decide) (by decide) hc

theorem inert_toString_nat (n : Nat) : Inert (toString n).toList := by
  rw [show (toString n).toList = Nat.toDigits 10 n from Nat.toList_repr]
  exact inert_toDigits n

theorem inert_toString_int (n : Int) : Inert (toString n).toList := by
  rw [Text.toList_toString_int]
  split
  · exact inert_append.2 ⟨(by decide : Inert ['-']), inert_toDigits _⟩
  · exact inert_toDigits _

theorem inert_replicate_zero (n : Nat) : Inert (List.replicate n '0') := by
  intro c hc
  rw [(List.mem_replicate.1 hc).2]
  decide

theorem inert_repr (d : Decimal) : Inert d.repr.toList := by
  have hdigits := inert_toString_nat d.mantissa.natAbs
  have htake : ∀ n, Inert ((toString d.mantissa.natAbs).toList.take n) :=
    fun n => hdigits.subset (List.take_subset _ _)
  have hdrop : ∀ n, Inert ((toString d.mantissa.natAbs).toList.drop n) :=
    fun n => hdigits.subset (List.drop_subset _ _)
  have hexponent : ∀ e, Inert (Decimal.exponentText e).toList := by
    intro e
    simp only [Decimal.exponentText, String.toList_append, inert_append]
    refine ⟨⟨?_, ?_⟩, inert_toString_nat _⟩
    · split <;> decide
    · split <;> decide
  unfold Decimal.repr
  dsimp only
  rw [String.toList_append, inert_append]
  refine ⟨by split <;> decide, ?_⟩
  split
  · split
    · simp only [String.toList_append, String.toList_ofList, inert_append]
      exact ⟨by decide, inert_replicate_zero _, hdigits⟩
    · split
      · simp only [String.toList_append, String.toList_ofList, inert_append]
        exact ⟨⟨hdigits, inert_replicate_zero _⟩, by decide⟩
      · simp only [String.toList_append, String.toList_ofList, inert_append]
        exact ⟨⟨htake _, by decide⟩, hdrop _⟩
  · simp only [String.toList_append, String.toList_ofList, inert_append]
    refine ⟨⟨⟨htake 1, ?_⟩, by decide⟩, hexponent _⟩
    split
    · decide
    · simp only [String.toList_append, String.toList_ofList, inert_append]
      exact ⟨by decide, hdrop 1⟩

/-! ## Bare texts -/

mutual

/-- The texts a term puts between quotes as they are. -/
def Term.bareTexts : Term → List String
  | .quoted s => [s]
  | .array items => Term.listBareTexts items
  | .set items => Term.listBareTexts items
  | .object fields => Term.fieldBareTexts fields
  | .sprintf format args => format.bareTexts ++ args.bareTexts
  | _ => []

def Term.listBareTexts : List Term → List String
  | [] => []
  | t :: ts => t.bareTexts ++ Term.listBareTexts ts

def Term.fieldBareTexts : List (String × Term) → List String
  | [] => []
  | (_, t) :: fs => t.bareTexts ++ Term.fieldBareTexts fs

end

def Literal.bareTexts : Literal → List String
  | holds t => t.bareTexts
  | cmp _ l r => l.bareTexts ++ r.bareTexts
  | mem l r => l.bareTexts ++ r.bareTexts
  | assign _ t => t.bareTexts

mutual

/-- What a term writes outside of literals is clean, and its keys stay in theirs. -/
def Term.CleanCode : Term → Prop
  | .lit (.str _) => True
  | .lit v => Clean v.render.toList
  | .quoted _ => True
  | .input path => Clean (Term.input path).text.toList
  | .var x => Clean x.toList
  | .rule name => Clean name.toList
  | .array items => Term.ListCleanCode items
  | .set items => Term.ListCleanCode items
  | .object fields => Term.FieldCleanCode fields
  | .sprintf format args => format.CleanCode ∧ args.CleanCode

def Term.ListCleanCode : List Term → Prop
  | [] => True
  | t :: ts => t.CleanCode ∧ Term.ListCleanCode ts

def Term.FieldCleanCode : List (String × Term) → Prop
  | [] => True
  | (k, t) :: fs => Closed k.toList ∧ t.CleanCode ∧ Term.FieldCleanCode fs

end

def Literal.CleanCode : Literal → Prop
  | holds t => t.CleanCode
  | cmp _ l r => l.CleanCode ∧ r.CleanCode
  | mem l r => l.CleanCode ∧ r.CleanCode
  | assign x t => Clean x.toList ∧ t.CleanCode

/-- Every text stays in the literal it is put in. -/
def AllClosed (texts : List String) : Prop := ∀ s ∈ texts, Closed s.toList

theorem allClosed_append {a b : List String} :
    AllClosed (a ++ b) ↔ AllClosed a ∧ AllClosed b :=
  List.forall_mem_append

theorem allClosed_nil : AllClosed [] := by simp [AllClosed]

theorem soundIff_constant {ps : List Piece} (h : SoundIff ps True) : SoundIff ps (AllClosed []) :=
  h.congr (iff_of_true trivial allClosed_nil)

mutual

/-- **A term is read as meant exactly when its bare texts stay in their literals.** -/
theorem Term.soundIff : ∀ {t : Term}, t.CleanCode → SoundIff t.pieces (AllClosed t.bareTexts)
  | .lit (.str s), _ => soundIff_constant
    ((SoundIff.literal _).congr (iff_of_true (closed_escape s.toList) trivial))
  | .lit .null, h => soundIff_constant (.code h)
  | .lit (.bool _), h => soundIff_constant (.code h)
  | .lit (.int _), h => soundIff_constant (.code h)
  | .lit (.float _), h => soundIff_constant (.code h)
  | .lit (.arr _), h => soundIff_constant (.code h)
  | .lit (.obj _), h => soundIff_constant (.code h)
  | .quoted s, _ => (SoundIff.literal _).congr (by simp [AllClosed, Term.bareTexts])
  | .input _, h => soundIff_constant (.code h)
  | .var _, h => soundIff_constant (.code h)
  | .rule _, h => soundIff_constant (.code h)
  | .array items, h =>
    .code_cons (by decide) ((Term.list_soundIff items h).append_code (by decide))
  | .set items, h =>
    .code_cons (by decide) ((Term.list_soundIff items h).append_code (by decide))
  | .object fields, h =>
    .code_cons (by decide) ((Term.field_soundIff fields h).append_code (by decide))
  | .sprintf format args, h => by
    have hformat := Term.soundIff (t := format) h.1
    have hargs := Term.soundIff (t := args) h.2
    refine .code_cons (by decide) ((hformat.append
      (.code_cons (by decide) (hargs.append_code (by decide)))).congr ?_)
    rw [Term.bareTexts, allClosed_append]

theorem Term.list_soundIff : ∀ ts : List Term, Term.ListCleanCode ts →
    SoundIff (Term.listPieces ts) (AllClosed (Term.listBareTexts ts))
  | [], _ => soundIff_constant .nil
  | [t], h => by
    rw [Term.listPieces, Term.listBareTexts, Term.listBareTexts, List.append_nil]
    exact Term.soundIff h.1
  | t :: u :: ts, h => by
    have ht := Term.soundIff (t := t) h.1
    have hts := Term.list_soundIff (u :: ts) h.2
    exact (ht.append (.code_cons (by decide) hts)).congr allClosed_append.symm

theorem Term.field_soundIff : ∀ fs : List (String × Term), Term.FieldCleanCode fs →
    SoundIff (Term.fieldPieces fs) (AllClosed (Term.fieldBareTexts fs))
  | [], _ => soundIff_constant .nil
  | (k, t) :: fs, h => by
    have ht := Term.soundIff (t := t) h.2.1
    have hfs := Term.field_soundIff fs h.2.2
    have hk := (SoundIff.literal k.toList).append
      (.code_cons (s := ": ".toList) (by decide)
        (ht.append (.code_cons (s := ",\n".toList) (by decide) hfs)))
    refine .code_cons (by decide) (hk.congr ?_)
    rw [Term.fieldBareTexts, allClosed_append, and_iff_right h.1]

end

theorem Literal.soundIff {l : Literal} (h : l.CleanCode) :
    SoundIff l.pieces (AllClosed l.bareTexts) := by
  cases l with
  | holds t => exact Term.soundIff h
  | cmp op l r =>
    have hop : Clean (" " ++ op.text ++ " ").toList := by cases op <;> decide
    exact ((Term.soundIff h.1).append (.code_cons hop (Term.soundIff h.2))).congr
      allClosed_append.symm
  | mem l r =>
    exact ((Term.soundIff h.1).append (.code_cons (by decide) (Term.soundIff h.2))).congr
      allClosed_append.symm
  | assign x t =>
    have hx : Clean (x ++ " := ").toList := by
      rw [String.toList_append, clean_append]
      exact ⟨h.1, by decide⟩
    exact .code_cons hx (Term.soundIff h.2)

end Lib.Rego
