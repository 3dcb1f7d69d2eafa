import RegEngine.Localization.EntityAlignment
import Mathlib.Data.List.Infix
import Mathlib.Algebra.Order.Field.Basic
import Mathlib.Tactic.Linarith
import Mathlib.Tactic.Positivity

/-!
# Matches of the glossary

The search returns an entity that has the phrase for an alias, or the best score of the overlapping aliases
(`searchAliases_spec`). So a match is a real one just when the phrase is an alias or a part of none
(`realMatches_iff`).
-/

namespace RegEngine.Localization

open Lib Lib.Python

variable {folded : String → String} {phrase phraseCanon aliasCanon : String} {language : RegionalLanguage}
  {translateFn : Option (String → String)}

/-- One of two texts is a part of the other, and at least half as long. -/
def Covers (aliasCanon phraseCanon : String) : Prop :=
  overlaps aliasCanon phraseCanon = true ∧
    max aliasCanon.length phraseCanon.length ≤ 2 * min aliasCanon.length phraseCanon.length

/-- A match of the glossary is one with an alias of the entity, and only that. -/
structure RealMatches (folded : String → String) (phrase : String) (language : RegionalLanguage)
    (translateFn : Option (String → String)) : Prop where
  matched : (alignRegionalEntity folded phrase language translateFn).method = "direct_glossary" →
    (alignRegionalEntity folded phrase language translateFn).confidence ≤ 1 ∧
      ∃ e ∈ aliasesOf language,
        (alignRegionalEntity folded phrase language translateFn).normalizedEntity = some e.1 ∧
          Covers (canon folded e.2) (canon folded phrase)
  unmatched : (∀ e ∈ aliasesOf language, ¬ Covers (canon folded e.2) (canon folded phrase)) →
    (alignRegionalEntity folded phrase language translateFn).method ≠ "direct_glossary"

/-! ## Parts of texts -/

theorem contains_iff {s sub : String} : contains s sub = true ↔ sub.toList <:+: s.toList := by
  unfold contains
  rw [List.any_eq_true]
  constructor
  · intro h
    obtain ⟨t, ht, hpre⟩ := h
    exact (List.isPrefixOf_iff_prefix.1 hpre).isInfix.trans ((List.mem_tails t _).1 ht).isInfix
  · intro h
    obtain ⟨t, hpre, hsuf⟩ := List.infix_iff_prefix_suffix.1 h
    exact ⟨t, (List.mem_tails t _).2 hsuf, List.isPrefixOf_iff_prefix.2 hpre⟩

theorem contains_self (s : String) : contains s s = true := contains_iff.2 (List.infix_refl _)

theorem length_le_of_contains {s sub : String} (h : contains s sub = true) : sub.length ≤ s.length := by
  rw [← String.length_toList, ← String.length_toList]
  exact (contains_iff.1 h).length_le

/-- A part as long as the whole is the whole. -/
theorem eq_of_contains {s sub : String} (h : contains s sub = true) (hlength : s.length ≤ sub.length) : sub = s := by
  rw [← String.length_toList, ← String.length_toList] at hlength
  exact String.toList_inj.1 ((contains_iff.1 h).eq_of_length_le hlength)

theorem covers_self (s : String) : Covers s s := by
  refine ⟨?_, by omega⟩
  unfold overlaps
  rw [contains_self]
  rfl

/-! ## The search -/

/-- What the search has found: an alias that is the phrase, or the best of the overlapping ones. -/
inductive Searched (folded : String → String) (phraseCanon : String) (bestEntity : Option String) (bestScore : Rat)
    (aliases : List (String × String)) : Found → Prop where
  | exact {entity : String} (h : ∃ e ∈ aliases, canon folded e.2 = phraseCanon ∧ entity = e.1) :
    Searched folded phraseCanon bestEntity bestScore aliases (.exact entity)
  | best {entity : Option String} {s : Rat} (hne : ∀ e ∈ aliases, canon folded e.2 ≠ phraseCanon)
    (hle : ∀ e ∈ aliases, overlaps (canon folded e.2) phraseCanon = true → score (canon folded e.2) phraseCanon ≤ s)
    (hstart : bestScore ≤ s)
    (hfrom : (entity = bestEntity ∧ s = bestScore) ∨ ∃ e ∈ aliases, overlaps (canon folded e.2) phraseCanon = true ∧
      entity = some e.1 ∧ s = score (canon folded e.2) phraseCanon) :
    Searched folded phraseCanon bestEntity bestScore aliases (.best entity s)

theorem searchAliases_spec (folded : String → String) (phraseCanon : String) (aliases : List (String × String))
    (bestEntity : Option String) (bestScore : Rat) :
    Searched folded phraseCanon bestEntity bestScore aliases
      (searchAliases folded phraseCanon bestEntity bestScore aliases) := by
  induction aliases generalizing bestEntity bestScore with
  | nil => exact .best (by simp) (by simp) le_rfl (.inl ⟨rfl, rfl⟩)
  | cons e aliases ih =>
    obtain ⟨canonical, name⟩ := e
    rw [searchAliases]
    by_cases heq : canon folded name = phraseCanon
    · rw [if_pos heq]
      exact .exact ⟨_, List.mem_cons_self, heq, rfl⟩
    · rw [if_neg heq]
      by_cases hbetter : overlaps (canon folded name) phraseCanon = true ∧ bestScore < score (canon folded name) phraseCanon
      · rw [if_pos hbetter]
        have hrest := ih (some canonical) (score (canon folded name) phraseCanon)
        generalize searchAliases folded phraseCanon _ _ aliases = found at hrest
        cases hrest with
        | exact h =>
          obtain ⟨e, he, hrest⟩ := h
          exact .exact ⟨e, List.mem_cons_of_mem _ he, hrest⟩
        | best hne hle hstart hfrom =>
          refine .best (List.forall_mem_cons.2 ⟨heq, hne⟩) (List.forall_mem_cons.2 ⟨fun _ => hstart, hle⟩)
            (hbetter.2.le.trans hstart) (.inr ?_)
          obtain ⟨hentity, hs⟩ | ⟨e, he, hrest⟩ := hfrom
          · exact ⟨_, List.mem_cons_self, hbetter.1, hentity, hs⟩
          · exact ⟨e, List.mem_cons_of_mem _ he, hrest⟩
      · rw [if_neg hbetter]
        have hrest := ih bestEntity bestScore
        generalize searchAliases folded phraseCanon _ _ aliases = found at hrest
        cases hrest with
        | exact h =>
          obtain ⟨e, he, hrest⟩ := h
          exact .exact ⟨e, List.mem_cons_of_mem _ he, hrest⟩
        | best hne hle hstart hfrom =>
          refine .best (List.forall_mem_cons.2 ⟨heq, hne⟩) (List.forall_mem_cons.2 ⟨fun hoverlaps => ?_, hle⟩) hstart ?_
          · exact (not_lt.1 fun hlt => hbetter ⟨hoverlaps, hlt⟩).trans hstart
          · obtain hsame | ⟨e, he, hrest⟩ := hfrom
            · exact .inl hsame
            · exact .inr ⟨e, List.mem_cons_of_mem _ he, hrest⟩

/-! ## Scores -/

theorem half_le_score_iff : 1 / 2 ≤ score aliasCanon phraseCanon ↔ max phraseCanon.length 1 ≤ 2 * aliasCanon.length := by
  have hpos : (0 : Rat) < max phraseCanon.length 1 := by positivity
  unfold score
  rw [div_le_div_iff₀ two_pos hpos, one_mul, mul_comm]
  norm_cast

theorem score_le_one_iff : score aliasCanon phraseCanon ≤ 1 ↔ aliasCanon.length ≤ max phraseCanon.length 1 := by
  have hpos : (0 : Rat) < max phraseCanon.length 1 := by positivity
  unfold score
  rw [div_le_one hpos]
  norm_cast

/-! ## The lookup -/

/-- The match of the glossary, if there is one. -/
theorem align_of_some (translateFn : Option (String → String)) {entity : String} {confidence : Rat}
    (h : directGlossaryLookup folded phrase language = (some entity, confidence)) :
    (alignRegionalEntity folded phrase language translateFn).method = "direct_glossary" ∧
      (alignRegionalEntity folded phrase language translateFn).normalizedEntity = some entity ∧
      (alignRegionalEntity folded phrase language translateFn).confidence = confidence := by
  unfold alignRegionalEntity
  rw [h]
  exact ⟨rfl, rfl, rfl⟩

theorem align_of_none {confidence : Rat} (h : directGlossaryLookup folded phrase language = (none, confidence)) :
    (alignRegionalEntity folded phrase language translateFn).method ≠ "direct_glossary" := by
  unfold alignRegionalEntity
  rw [h]
  cases translateFn with
  | none =>
    show "unresolved" ≠ "direct_glossary"
    decide
  | some translate =>
    show (if (lookupEntity folded (translate phrase)).resolved then "translated_fallback" else "unresolved") ≠
      "direct_glossary"
    split
    · decide
    · decide

/-- The entity of an alias that is the phrase. -/
theorem lookup_of_exact (h : ∃ e ∈ aliasesOf language, canon folded e.2 = canon folded phrase) :
    ∃ e ∈ aliasesOf language, canon folded e.2 = canon folded phrase ∧
      directGlossaryLookup folded phrase language = (some e.1, 1) := by
  have hspec := searchAliases_spec folded (canon folded phrase) (aliasesOf language) none 0
  unfold directGlossaryLookup
  generalize searchAliases folded (canon folded phrase) none 0 (aliasesOf language) = found at hspec
  cases hspec with
  | exact hfound =>
    obtain ⟨e, he, heq, hentity⟩ := hfound
    rw [hentity]
    exact ⟨e, he, heq, rfl⟩
  | best hne =>
    obtain ⟨e, he, heq⟩ := h
    exact absurd heq (hne e he)

/-- Otherwise the best score of the overlapping aliases decides. -/
theorem lookup_of_ne (h : ∀ e ∈ aliasesOf language, canon folded e.2 ≠ canon folded phrase) :
    (∃ e ∈ aliasesOf language, overlaps (canon folded e.2) (canon folded phrase) = true ∧
        1 / 2 ≤ score (canon folded e.2) (canon folded phrase) ∧
        (∀ d ∈ aliasesOf language, overlaps (canon folded d.2) (canon folded phrase) = true →
          score (canon folded d.2) (canon folded phrase) ≤ score (canon folded e.2) (canon folded phrase)) ∧
        directGlossaryLookup folded phrase language =
          (some e.1, score (canon folded e.2) (canon folded phrase))) ∨
      (∀ e ∈ aliasesOf language, overlaps (canon folded e.2) (canon folded phrase) = true →
        score (canon folded e.2) (canon folded phrase) < 1 / 2) ∧
        directGlossaryLookup folded phrase language = (none, 0) := by
  have hspec := searchAliases_spec folded (canon folded phrase) (aliasesOf language) none 0
  unfold directGlossaryLookup
  generalize searchAliases folded (canon folded phrase) none 0 (aliasesOf language) = found at hspec
  cases hspec with
  | exact hfound =>
    obtain ⟨e, he, heq, -⟩ := hfound
    exact absurd heq (h e he)
  | best hne hle hstart hfrom =>
    rename_i entity s
    by_cases hhalf : 1 / 2 ≤ s
    · left
      obtain ⟨-, hs⟩ | ⟨e, he, hoverlaps, rfl, rfl⟩ := hfrom
      · rw [hs] at hhalf
        norm_num at hhalf
      · exact ⟨e, he, hoverlaps, hhalf, hle, if_pos hhalf⟩
    · right
      exact ⟨fun e he hoverlaps => (hle e he hoverlaps).trans_lt (not_le.1 hhalf), if_neg hhalf⟩

/-! ## Real matches -/

theorem overlaps_iff : overlaps aliasCanon phraseCanon = true ↔
    contains phraseCanon aliasCanon = true ∨ contains aliasCanon phraseCanon = true := by
  unfold overlaps
  rw [Bool.or_eq_true]

/-- A part of the phrase covers it just when its score is at least one half. -/
theorem covers_iff_of_part (h : contains phraseCanon aliasCanon = true) (hne : aliasCanon ≠ phraseCanon) :
    Covers aliasCanon phraseCanon ↔ 1 / 2 ≤ score aliasCanon phraseCanon := by
  have hle := length_le_of_contains h
  have hlt : aliasCanon.length < phraseCanon.length := by
    by_contra hge
    exact hne (eq_of_contains h (not_lt.1 hge))
  rw [half_le_score_iff]
  unfold Covers
  rw [overlaps_iff]
  constructor
  · intro hcovers
    have := hcovers.2
    omega
  · intro hhalf
    exact ⟨.inl h, by omega⟩

/-- An alias with the phrase for a proper part makes a match that is none. -/
theorem not_realMatches (hne : ∀ e ∈ aliasesOf language, canon folded e.2 ≠ canon folded phrase)
    (h : ∃ e ∈ aliasesOf language, contains (canon folded e.2) (canon folded phrase) = true) :
    ¬ RealMatches folded phrase language translateFn := by
  intro hreal
  obtain ⟨d, hd, hcontains⟩ := h
  have hlonger : (canon folded phrase).length < (canon folded d.2).length := by
    by_contra hge
    exact hne d hd (eq_of_contains hcontains (not_lt.1 hge)).symm
  have hoverlaps := overlaps_iff.2 (.inr hcontains)
  obtain ⟨e, he, -, hhalf, hmax, hlookup⟩ | ⟨hlow, -⟩ := lookup_of_ne hne
  · obtain ⟨hmethod, hentity, hconfidence⟩ := align_of_some translateFn hlookup
    obtain ⟨hone, f, hf, -, hcovers⟩ := hreal.matched hmethod
    rw [hconfidence] at hone
    have hd1 := score_le_one_iff.1 ((hmax d hd hoverlaps).trans hone)
    have hempty : (canon folded phrase).length = 0 := by omega
    have hzero : (canon folded f.2).length = 0 := by
      have := hcovers.2
      omega
    have hfe : canon folded f.2 = canon folded phrase := by
      rw [← String.length_toList, List.length_eq_zero_iff] at hempty hzero
      exact String.toList_inj.1 (hzero.trans hempty.symm)
    exact hne f hf hfe
  · have hscore := hlow d hd hoverlaps
    have : ¬ 1 / 2 ≤ score (canon folded d.2) (canon folded phrase) := not_le.2 hscore
    rw [half_le_score_iff] at this
    omega

/-- **A glossary match is a real one** just when the phrase is an alias, or a part of none. -/
theorem realMatches_iff (folded : String → String) (phrase : String) (language : RegionalLanguage)
    (translateFn : Option (String → String)) :
    RealMatches folded phrase language translateFn ↔
      (∃ e ∈ aliasesOf language, canon folded e.2 = canon folded phrase) ∨
        ∀ e ∈ aliasesOf language, contains (canon folded e.2) (canon folded phrase) = false := by
  constructor
  · intro h
    by_contra hneither
    obtain ⟨hne, hpart⟩ := not_or.1 hneither
    refine not_realMatches (fun e he heq => hne ⟨e, he, heq⟩) ?_ h
    by_contra hnone
    exact hpart fun e he => by
      by_contra hcontains
      exact hnone ⟨e, he, by simpa using hcontains⟩
  · intro h
    by_cases hexact : ∃ e ∈ aliasesOf language, canon folded e.2 = canon folded phrase
    · obtain ⟨e, he, heq, hlookup⟩ := lookup_of_exact hexact
      obtain ⟨-, hentity, hconfidence⟩ := align_of_some translateFn hlookup
      have hcovers : Covers (canon folded e.2) (canon folded phrase) := by
        rw [heq]
        exact covers_self _
      exact ⟨fun _ => ⟨hconfidence.le, e, he, hentity, hcovers⟩, fun hnone => absurd hcovers (hnone e he)⟩
    · have hne : ∀ e ∈ aliasesOf language, canon folded e.2 ≠ canon folded phrase :=
        fun e he heq => hexact ⟨e, he, heq⟩
      have hpart : ∀ e ∈ aliasesOf language, overlaps (canon folded e.2) (canon folded phrase) = true →
          contains (canon folded phrase) (canon folded e.2) = true := by
        intro e he hoverlaps
        refine (overlaps_iff.1 hoverlaps).resolve_right ?_
        rw [h.resolve_left hexact e he]
        decide
      obtain ⟨e, he, hoverlaps, hhalf, -, hlookup⟩ | ⟨hlow, hlookup⟩ := lookup_of_ne hne
      · obtain ⟨-, hentity, hconfidence⟩ := align_of_some translateFn hlookup
        have hcovers := (covers_iff_of_part (hpart e he hoverlaps) (hne e he)).2 hhalf
        refine ⟨fun _ => ⟨?_, e, he, hentity, hcovers⟩, fun hnone => absurd hcovers (hnone e he)⟩
        rw [hconfidence, score_le_one_iff]
        exact (length_le_of_contains (hpart e he hoverlaps)).trans (le_max_left _ _)
      · exact ⟨fun hmethod => absurd hmethod (align_of_none hlookup), fun _ => align_of_none hlookup⟩

/-- The empty phrase is the longest alias, with a confidence past one. -/
theorem not_forall_realMatches :
    ¬ ∀ folded phrase language translateFn, RealMatches folded phrase language translateFn := by
  intro h
  have hne : ∀ e ∈ aliasesOf .hindi, canon id e.2 ≠ canon id "" := by decide +kernel
  have hpart : contains (canon id "ब्रोकर") (canon id "") = true := by decide +kernel
  have hmem : ("Stockbroker", "ब्रोकर") ∈ aliasesOf .hindi := by decide +kernel
  exact not_realMatches hne ⟨_, hmem, hpart⟩ (h id "" .hindi none)

end RegEngine.Localization
