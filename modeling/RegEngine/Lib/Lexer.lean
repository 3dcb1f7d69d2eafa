import Mathlib.Data.List.Basic

/-!
# Texts put together from pieces, and how a lexer reads them

A language whose string literals stand between double quotes, with a backslash escape, and whose
comments begin with `#` and end with the line. `regions` says of each character of a text whether the
lexer takes it for code (a character of a word, or another one), for the inside of a string literal
or for the inside of a comment.

A text that is put together from pieces is meant to be read piece by piece (`Piece.intended`).

* `Piece.Sound`: what a piece must be for that, by its kind.
* `regions_render_iff`: a text is read as meant exactly when every piece is sound.
* `SoundIff`: when some pieces are sound, put together from when their parts are.
-/

namespace Lib.Lexer

inductive Region where
  | word
  | other
  | literal
  | comment
  deriving DecidableEq

/-- Where the lexer is; `escape` is behind a backslash inside a literal. -/
inductive State where
  | code
  | literal
  | escape
  | comment
  deriving DecidableEq

/-- The characters of names, paths and numbers. -/
def isWordChar (c : Char) : Bool := c.isAlphanum || c = '_' || c = '.'

/-- The lexer reads a character. -/
def step : State → Char → Region × State
  | .code, c =>
    if c = '"' then (.other, .literal)
    else if c = '#' then (.other, .comment)
    else (if isWordChar c then .word else .other, .code)
  | .literal, c =>
    if c = '"' then (.other, .code)
    else if c = '\\' then (.literal, .escape)
    else (.literal, .literal)
  | .escape, _ => (.literal, .literal)
  | .comment, c => if c = '\n' then (.other, .code) else (.comment, .comment)

def regions : State → List Char → List Region
  | _, [] => []
  | s, c :: cs => (step s c).1 :: regions (step s c).2 cs

/-- Where the lexer is after a text. -/
def after : State → List Char → State
  | s, [] => s
  | s, c :: cs => after (step s c).2 cs

theorem regions_append (a b : List Char) : ∀ s : State,
    regions s (a ++ b) = regions s a ++ regions (after s a) b := by
  induction a with
  | nil => exact fun _ => rfl
  | cons c cs ih =>
    intro s
    rw [List.cons_append, regions, regions, after, ih]
    rfl

theorem after_append (a b : List Char) : ∀ s : State, after s (a ++ b) = after (after s a) b := by
  induction a with
  | nil => exact fun _ => rfl
  | cons c cs ih => exact fun s => ih _

theorem length_regions (a : List Char) : ∀ s : State, (regions s a).length = a.length := by
  induction a with
  | nil => exact fun _ => rfl
  | cons c cs ih =>
    intro s
    rw [regions, List.length_cons, List.length_cons, ih]

/-! ## Pieces -/

inductive Piece where
  | code (s : List Char)
  | name (s : List Char)
  | literal (s : List Char)
  | comment (s : List Char)

namespace Piece

def text : Piece → List Char
  | code s => s
  | name s => s
  | literal s => '"' :: (s ++ ['"'])
  | comment s => '#' :: (s ++ ['\n'])

/-- How the characters of a piece are meant to be read. -/
def intended : Piece → List Region
  | code s => regions .code s
  | name s => s.map fun _ => .word
  | literal s => .other :: (s.map (fun _ => .literal) ++ [.other])
  | comment s => .other :: (s.map (fun _ => .comment) ++ [.other])

end Piece

/-- Code that neither opens a literal nor begins a comment. -/
def Clean (s : List Char) : Prop := ∀ c ∈ s, c ≠ '"' ∧ c ≠ '#'

instance (s : List Char) : Decidable (Clean s) := List.decidableBAll _ s

/-- No quote of the text ends the literal, and no escape is open at its end. -/
def closedFrom : Bool → List Char → Bool
  | escaped, [] => !escaped
  | true, _ :: cs => closedFrom false cs
  | false, c :: cs => c ≠ '"' && closedFrom (c = '\\') cs

def Closed (s : List Char) : Prop := closedFrom false s = true

instance (s : List Char) : Decidable (Closed s) := inferInstanceAs (Decidable (_ = true))

def Piece.Sound : Piece → Prop
  | code s => Clean s
  | name s => ∀ c ∈ s, isWordChar c = true
  | literal s => Closed s
  | comment s => '\n' ∉ s

theorem clean_append {a b : List Char} : Clean (a ++ b) ↔ Clean a ∧ Clean b :=
  List.forall_mem_append

/-- No character of the text opens a literal, begins a comment or ends one. -/
def Inert (s : List Char) : Prop := ∀ c ∈ s, c ≠ '"' ∧ c ≠ '#' ∧ c ≠ '\n'

instance (s : List Char) : Decidable (Inert s) := List.decidableBAll _ s

theorem inert_append {a b : List Char} : Inert (a ++ b) ↔ Inert a ∧ Inert b :=
  List.forall_mem_append

theorem inert_cons {c : Char} {s : List Char} :
    Inert (c :: s) ↔ (c ≠ '"' ∧ c ≠ '#' ∧ c ≠ '\n') ∧ Inert s :=
  List.forall_mem_cons

theorem Inert.subset {a b : List Char} (h : Inert b) (hs : a ⊆ b) : Inert a :=
  fun c hc => h c (hs hc)

theorem Inert.clean {s : List Char} (h : Inert s) : Clean s := fun c hc => ⟨(h c hc).1, (h c hc).2.1⟩

theorem Inert.newline_notMem {s : List Char} (h : Inert s) : '\n' ∉ s := fun hn => (h _ hn).2.2 rfl

theorem inert_of_forall {p : Char → Bool} (hq : p '"' = false) (hh : p '#' = false)
    (hn : p '\n' = false) {s : List Char} (h : ∀ c ∈ s, p c = true) : Inert s := by
  intro c hc
  have hp := h c hc
  refine ⟨fun he => ?_, fun he => ?_, fun he => ?_⟩
  · rw [he, hq] at hp
    cases hp
  · rw [he, hh] at hp
    cases hp
  · rw [he, hn] at hp
    cases hp

/-! ## One piece -/

theorem after_code {s : List Char} (h : Clean s) : after .code s = .code := by
  induction s with
  | nil => rfl
  | cons c cs ih =>
    have hc := h c List.mem_cons_self
    rw [after, show (step .code c).2 = .code by simp [step, hc.1, hc.2]]
    exact ih fun d hd => h d (List.mem_cons_of_mem _ hd)

theorem inert_of_word {s : List Char} (h : ∀ c ∈ s, isWordChar c = true) : Inert s :=
  inert_of_forall (by decide) (by decide) (by decide) h

theorem regions_name_iff {s : List Char} :
    regions .code s = s.map (fun _ => .word) ↔ ∀ c ∈ s, isWordChar c = true := by
  induction s with
  | nil => simp [regions]
  | cons c cs ih =>
    rw [regions, List.map_cons, List.cons.injEq]
    by_cases hc : isWordChar c = true
    · have hclean := (inert_of_word (s := [c]) (by simpa using hc)).clean c List.mem_cons_self
      have hstep : step .code c = (.word, .code) := by simp [step, hclean.1, hclean.2, hc]
      rw [hstep, ih]
      simp [hc]
    · have hstep : (step .code c).1 = .other := by
        by_cases hq : c = '"'
        · simp [step, hq]
        · by_cases hh : c = '#'
          · simp [step, hh]
          · simp [step, hq, hh, hc]
      rw [hstep]
      simp [hc]

/-- The inside of a literal and its closing quote. -/
theorem regions_literal_iff (s : List Char) : ∀ escaped : Bool,
    regions (if escaped then .escape else .literal) (s ++ ['"']) =
      s.map (fun _ => .literal) ++ [.other] ↔ closedFrom escaped s = true := by
  induction s with
  | nil =>
    intro escaped
    cases escaped <;> simp [regions, step, closedFrom]
  | cons c cs ih =>
    intro escaped
    rw [List.cons_append, regions, List.map_cons, List.cons_append, List.cons.injEq]
    cases escaped with
    | true => simpa [step, closedFrom] using ih false
    | false =>
      by_cases hq : c = '"'
      · simp [step, hq, closedFrom]
      · by_cases hb : c = '\\'
        · simpa [step, hb, closedFrom] using ih true
        · simpa [step, hq, hb, closedFrom] using ih false

theorem after_literal {s : List Char} : ∀ escaped : Bool, closedFrom escaped s = true →
    after (if escaped then .escape else .literal) (s ++ ['"']) = .code := by
  induction s with
  | nil =>
    intro escaped h
    cases escaped with
    | true => simp [closedFrom] at h
    | false => rfl
  | cons c cs ih =>
    intro escaped h
    rw [List.cons_append, after]
    cases escaped with
    | true => exact ih false h
    | false =>
      have hq : c ≠ '"' := by
        intro hq
        simp [closedFrom, hq] at h
      by_cases hb : c = '\\'
      · have hrest : closedFrom true cs = true := by simpa [closedFrom, hb] using h
        simpa [step, hb] using ih true hrest
      · have hrest : closedFrom false cs = true := by simpa [closedFrom, hq, hb] using h
        simpa [step, hq, hb] using ih false hrest

theorem regions_comment_iff (s : List Char) :
    regions .comment (s ++ ['\n']) = s.map (fun _ => .comment) ++ [.other] ↔ '\n' ∉ s := by
  induction s with
  | nil => simp [regions, step]
  | cons c cs ih =>
    rw [List.cons_append, regions, List.map_cons, List.cons_append, List.cons.injEq]
    by_cases hn : c = '\n'
    · simp [step, hn]
    · simpa [step, hn, Ne.symm hn] using ih

theorem after_comment {s : List Char} (h : '\n' ∉ s) : after .comment (s ++ ['\n']) = .code := by
  induction s with
  | nil => rfl
  | cons c cs ih =>
    rw [List.mem_cons, not_or] at h
    rw [List.cons_append, after, show (step .comment c).2 = .comment by simp [step, Ne.symm h.1]]
    exact ih h.2

namespace Piece

/-- A piece that is not code is read as meant exactly when it is sound. -/
theorem regions_text_iff (p : Piece) (hcode : ∀ s, p = code s → Clean s) :
    regions .code p.text = p.intended ↔ p.Sound := by
  cases p with
  | code s => exact iff_of_true rfl (hcode s rfl)
  | name s => exact regions_name_iff
  | literal s =>
    rw [text, intended, regions, List.cons.injEq]
    exact (and_iff_right rfl).trans (regions_literal_iff s false)
  | comment s =>
    rw [text, intended, regions, List.cons.injEq]
    exact (and_iff_right rfl).trans (regions_comment_iff s)

/-- After a sound piece the lexer is back in code. -/
theorem after_text {p : Piece} (h : p.Sound) : after .code p.text = .code := by
  cases p with
  | code s => exact after_code h
  | name s => exact after_code (inert_of_word h).clean
  | literal s => exact after_literal false h
  | comment s => exact after_comment h

theorem length_intended (p : Piece) : p.intended.length = p.text.length := by
  cases p with
  | code s => exact length_regions s _
  | name s => simp [intended, text]
  | literal s => simp [intended, text]
  | comment s => simp [intended, text]

end Piece

/-! ## Texts of pieces -/

def render (ps : List Piece) : List Char := ps.flatMap Piece.text

def intended (ps : List Piece) : List Region := ps.flatMap Piece.intended

/-- **A text is read as it is meant exactly when all its pieces are sound.** The first piece that is
not sound is read differently, whatever stands behind it. -/
theorem regions_render_iff (ps : List Piece) (hcode : ∀ s, Piece.code s ∈ ps → Clean s) :
    regions .code (render ps) = intended ps ↔ ∀ p ∈ ps, p.Sound := by
  induction ps with
  | nil => simp [render, intended, regions]
  | cons p ps ih =>
    have hp := p.regions_text_iff fun s hs => hcode s (hs ▸ List.mem_cons_self)
    have hps := ih fun s hs => hcode s (List.mem_cons_of_mem _ hs)
    have hrender : render (p :: ps) = p.text ++ render ps := rfl
    have hintended : intended (p :: ps) = p.intended ++ intended ps := rfl
    rw [hrender, hintended, regions_append, List.forall_mem_cons]
    have hlen : (regions .code p.text).length = p.intended.length := by
      rw [length_regions, p.length_intended]
    have hsplit : regions .code p.text ++ regions (after .code p.text) (render ps) =
          p.intended ++ intended ps ↔
        regions .code p.text = p.intended ∧
          regions (after .code p.text) (render ps) = intended ps :=
      ⟨fun h => List.append_inj h hlen, fun h => by rw [h.1, h.2]⟩
    rw [hsplit, hp]
    refine and_congr_right fun hsound => ?_
    rw [Piece.after_text hsound, hps]

/-! ## When pieces are sound -/

/-- The code of the pieces is clean, and they are sound exactly when `P` holds. -/
structure SoundIff (ps : List Piece) (P : Prop) : Prop where
  clean : ∀ s, Piece.code s ∈ ps → Clean s
  sound : (∀ p ∈ ps, p.Sound) ↔ P

namespace SoundIff

variable {ps qs : List Piece} {P Q : Prop}

/-- **A text is read as it is meant exactly when `P` holds.** -/
theorem regions_iff (h : SoundIff ps P) : regions .code (render ps) = intended ps ↔ P :=
  (regions_render_iff ps h.clean).trans h.sound

theorem congr (h : SoundIff ps P) (hpq : P ↔ Q) : SoundIff ps Q := ⟨h.clean, h.sound.trans hpq⟩

theorem nil : SoundIff [] True := ⟨by simp, by simp⟩

theorem code {s : List Char} (h : Clean s) : SoundIff [.code s] True :=
  ⟨by simpa using h, by simpa [Piece.Sound] using h⟩

theorem name (s : List Char) : SoundIff [.name s] (∀ c ∈ s, isWordChar c = true) :=
  ⟨by simp, by simp [Piece.Sound]⟩

theorem literal (s : List Char) : SoundIff [.literal s] (Closed s) :=
  ⟨by simp, by simp [Piece.Sound]⟩

theorem comment (s : List Char) : SoundIff [.comment s] ('\n' ∉ s) :=
  ⟨by simp, by simp [Piece.Sound]⟩

theorem append (hp : SoundIff ps P) (hq : SoundIff qs Q) : SoundIff (ps ++ qs) (P ∧ Q) := by
  refine ⟨fun s hs => ?_, ?_⟩
  · rcases List.mem_append.1 hs with hs | hs
    · exact hp.clean s hs
    · exact hq.clean s hs
  · rw [List.forall_mem_append, hp.sound, hq.sound]

/-- Code in front of pieces changes nothing. -/
theorem code_cons {s : List Char} (h : Clean s) (hq : SoundIff qs Q) :
    SoundIff (.code s :: qs) Q :=
  ((code h).append hq).congr (iff_of_eq (true_and Q))

/-- Nor does code behind them. -/
theorem append_code {s : List Char} (hp : SoundIff ps P) (h : Clean s) :
    SoundIff (ps ++ [.code s]) P :=
  (hp.append (code h)).congr (iff_of_eq (and_true P))

theorem flatMap {α : Type} {f : α → List Piece} {P : α → Prop} : ∀ {l : List α},
    (∀ a ∈ l, SoundIff (f a) (P a)) → SoundIff (l.flatMap f) (∀ a ∈ l, P a)
  | [], _ => nil.congr (by simp)
  | a :: l, h => by
    have ha := h a List.mem_cons_self
    have hl := flatMap fun b hb => h b (List.mem_cons_of_mem _ hb)
    exact (ha.append hl).congr (by simp)

end SoundIff

end Lib.Lexer
