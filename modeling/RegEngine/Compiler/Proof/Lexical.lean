import RegEngine.Compiler.Proof.Module
import RegEngine.Compiler.Proof.Package
import RegEngine.Lib.RegoText

/-!
# How the text of an emitted module is read

`compile_rule_to_rego` puts texts of the rule into comments, between quotes and into the package
path. `moduleLines` says for each line of the module which characters are meant as code and which as
such a text.

* `render_moduleLines`: these lines are the text that is emitted.
* `regoCode_read_iff`: a lexer reads them as they are meant exactly when the rule's texts stay where
  they are put (`SafeTexts`).
-/

namespace RegEngine.Compiler

open Lib Lib.Python Lib.Calendar Lib.Rego Lib.Lexer Lib.Except

/-! ## Lines -/

/-- A line of a module: a comment, given by what follows its sign, or pieces of code. -/
inductive Line where
  | comment (s : List Char)
  | code (ps : List Piece)

namespace Line

def text : Line → String
  | comment s => String.ofList ('#' :: s)
  | code ps => String.ofList (render ps)

/-- The pieces of the line and of its end. -/
def pieces : Line → List Piece
  | comment s => [.comment s]
  | code ps => ps ++ [.code ['\n']]

theorem render_pieces (l : Line) : render l.pieces = l.text.toList ++ ['\n'] := by
  cases l with
  | comment s => simp [pieces, text, render_cons, render_nil, Piece.text]
  | code ps => simp [pieces, text, render_append, render_cons, render_nil, Piece.text]

end Line

/-- Lines with a line break after each. -/
theorem render_lines (ls : List Line) :
    render (ls.flatMap Line.pieces) = ("\n".intercalate (ls.map Line.text ++ [""])).toList := by
  induction ls with
  | nil => rfl
  | cons l ls ih =>
    rw [List.flatMap_cons, render_append, Line.render_pieces, ih]
    obtain ⟨m, ms, hms⟩ : ∃ m ms, ls.map Line.text ++ [""] = m :: ms :=
      List.exists_cons_of_ne_nil (by simp)
    rw [List.map_cons, List.cons_append, hms]
    simp

/-! ## The lines of a module -/

def codeLine (s : String) : Line := .code [.code s.toList]

def commentLine (line : String) : Line := .comment line.toList.tail

/-- The lines of `name if { … }`, with the pieces of its body. -/
def ifPieces (head : String) (body : List (List Piece)) : List Line :=
  codeLine (head ++ " if \x7b") ::
    (body.map (fun ps => .code (.code indent.toList :: ps)) ++ [codeLine "\x7d", codeLine ""])

def conditionPieces : List Literal → List (List Piece)
  | [] => []
  | l :: rest => l.pieces :: rest.map fun l => .code indent.toList :: l.pieces

/-- The comment above a condition. -/
def conditionComment (t : NumericalThreshold) : String :=
  "# " ++ t.metric ++ " " ++ t.operator.value ++ " " ++ t.value.repr ++ t.unit

/-- The lines of the module as they are meant. -/
def moduleLines (rule : ExtractedComplianceRule) (ruleVersion : Int) (generatedAt : DateTime)
    (p : RegoParts) : List Line :=
  (metadataLines rule ruleVersion generatedAt p).map commentLine ++
  [.code [.code "package ".toList, .name p.package.toList], codeLine "", codeLine "import rego.v1",
    codeLine "", codeLine "default allow := false", codeLine ""] ++
  p.guard.toList.flatMap (fun g =>
    [.code (.code "entity_matches if \x7b ".toList :: (g.pieces ++ [.code " \x7d".toList])),
      codeLine ""]) ++
  p.conditions.zipIdx.flatMap (fun c =>
    commentLine (conditionComment c.1.1) :: ifPieces (condName c.2) (conditionPieces c.1.2)) ++
  ifPieces "allow" (p.allowBody.map (·.pieces)) ++
  p.violations.flatMap (fun v => ifPieces "violation contains msg"
    ((p.guardBody ++ [v.1, .assign "msg" v.2]).map (·.pieces))) ++
  [codeLine "deny := violation", codeLine "",
    .code (.code "decision := ".toList :: (decisionTerm rule ruleVersion p).pieces)]

def modulePieces (rule : ExtractedComplianceRule) (ruleVersion : Int) (generatedAt : DateTime)
    (p : RegoParts) : List Piece :=
  (moduleLines rule ruleVersion generatedAt p).flatMap Line.pieces

section
variable {rule : ExtractedComplianceRule} {ruleVersion : Int} {generatedAt : DateTime}
  {p : RegoParts}

theorem text_codeLine (s : String) : (codeLine s).text = s := by
  simp [codeLine, Line.text, render_cons, render_nil, Piece.text]

theorem text_commentLine {line : String} (h : line.toList.head? = some '#') :
    (commentLine line).text = line := by
  obtain ⟨cs, hcs⟩ := List.head?_eq_some_iff.1 h
  rw [← String.toList_inj]
  simp [commentLine, Line.text, hcs]

theorem head_metadataLines :
    ∀ l ∈ metadataLines rule ruleVersion generatedAt p, l.toList.head? = some '#' := by
  intro l hl
  have hoptional : ∀ (key : String) (s : Option String),
      l ∈ (if truthy s then ["#   " ++ key ++ ": " ++ s.getD ""] else []) →
        l.toList.head? = some '#' := by
    intro key s h
    split at h
    · rw [List.mem_singleton.1 h]
      simp
    · cases h
  simp only [metadataLines, List.mem_append, List.mem_cons, List.not_mem_nil, or_false] at hl
  rcases hl with ((hl | hl) | hl) | hl
  · rcases hl with rfl | rfl | rfl | rfl | rfl | rfl | rfl | rfl | rfl <;> simp
  · exact hoptional _ _ hl
  · exact hoptional _ _ hl
  · rcases hl with rfl | rfl | rfl | rfl <;> simp

theorem text_ifPieces (head : String) (body : List (List Piece)) :
    (ifPieces head body).map Line.text =
      ifLines head (body.map fun ps => String.ofList (render ps)) := by
  have hline : Line.text ∘ (fun ps => .code (.code indent.toList :: ps)) =
      fun ps => indent ++ String.ofList (render ps) := by
    funext ps
    rw [← String.toList_inj]
    simp [Line.text, render_cons, Piece.text]
  simp [ifPieces, ifLines, text_codeLine, hline]

theorem text_conditionPieces (body : List Literal) :
    (conditionPieces body).map (fun ps => String.ofList (render ps)) = conditionLines body := by
  cases body with
  | nil => rfl
  | cons l rest =>
    have hline : (fun ps => String.ofList (render ps)) ∘
        (fun l : Literal => .code indent.toList :: l.pieces) = fun l => indent ++ l.text := by
      funext l
      rw [← String.toList_inj]
      simp [render_cons, Literal.render_pieces, Piece.text]
    simp [conditionPieces, conditionLines, Literal.render_pieces, hline]

/-- The lines have the texts that the compiler joins. -/
theorem text_moduleLines :
    (moduleLines rule ruleVersion generatedAt p).map Line.text ++ [""] =
      regoLines rule ruleVersion generatedAt p := by
  have hmetadata : (metadataLines rule ruleVersion generatedAt p).map
      (fun l => (commentLine l).text) = metadataLines rule ruleVersion generatedAt p := by
    refine (List.map_congr_left fun l hl => ?_).trans (List.map_id _)
    exact text_commentLine (head_metadataLines l hl)
  have hcomment : ∀ t, (commentLine (conditionComment t)).text = conditionComment t :=
    fun t => text_commentLine (by simp [conditionComment])
  have hpackage : (Line.code [.code "package ".toList, .name p.package.toList]).text =
      "package " ++ p.package := by
    rw [← String.toList_inj]
    simp [Line.text, render_cons, render_nil, Piece.text]
  have hguard : ∀ g : Literal, (Line.code (.code "entity_matches if \x7b ".toList ::
      (g.pieces ++ [.code " \x7d".toList]))).text = "entity_matches if \x7b " ++ g.text ++ " \x7d" := by
    intro g
    rw [← String.toList_inj]
    simp [Line.text, render_cons, render_append, render_nil, Literal.render_pieces, Piece.text]
  have hdecision : (Line.code (.code "decision := ".toList ::
      (decisionTerm rule ruleVersion p).pieces)).text =
        "decision := " ++ (decisionTerm rule ruleVersion p).text := by
    rw [← String.toList_inj]
    simp [Line.text, render_cons, Term.render_pieces, Piece.text]
  simp only [moduleLines, regoLines, List.map_append, List.map_cons, List.map_nil, List.map_flatMap,
    List.map_map, hcomment, hpackage, hguard, hdecision, text_codeLine, text_ifPieces,
    text_conditionPieces, List.append_assoc, Function.comp_def, Literal.render_pieces,
    String.ofList_toList, hmetadata]
  rfl

/-- **The pieces of the lines are the text that is emitted.** -/
theorem render_modulePieces :
    render (modulePieces rule ruleVersion generatedAt p) =
      (compiledRego rule ruleVersion generatedAt p).regoCode.toList := by
  rw [modulePieces, render_lines, text_moduleLines, compiledRego]

end

/-! ## Names and numbers -/

theorem identifier_word {f : CanonicalFact} (hf : f ∈ canonicalFacts) :
    ∀ c ∈ f.identifier.toList, isWordChar c = true := by
  have hall : canonicalFacts.all (fun f => f.identifier.toList.all isWordChar) = true := by decide
  exact List.all_eq_true.1 (List.all_eq_true.1 hall f hf)

theorem getCanonicalFact_some {id : String} {f : CanonicalFact} (h : getCanonicalFact id = some f) :
    f ∈ canonicalFacts ∧ f.identifier = id :=
  ⟨List.mem_of_find?_eq_some h, by simpa using List.find?_some h⟩

theorem matchFact_mem {metric : String} {f : CanonicalFact} (h : matchFact metric = some f) :
    f ∈ canonicalFacts := by
  rw [matchFact, Option.or_eq_some_iff, Option.or_eq_some_iff] at h
  rcases h with h | ⟨-, h | ⟨-, h⟩⟩
  · exact (getCanonicalFact_some h).1
  · exact (getCanonicalFact_some h).1
  · exact List.mem_of_find?_eq_some h

/-- What is resolved is the identifier of a canonical fact. -/
theorem resolveCanonicalFact_mem {metric id : String} {unit : Option String}
    {value valueUpper : Option Decimal}
    (h : (resolveCanonicalFact metric unit value valueUpper).canonicalIdentifier = some id) :
    ∃ f ∈ canonicalFacts, f.identifier = id := by
  unfold resolveCanonicalFact at h
  split at h
  · cases h
  · split at h
    · cases h
    · rename_i f hf
      refine ⟨f, matchFact_mem hf, ?_⟩
      split at h
      · exact Option.some.inj h
      · split at h <;> exact Option.some.inj h

/-- The field of a threshold is the identifier of a canonical fact. -/
theorem thresholdField_mem {t : NumericalThreshold} {field : String}
    (h : thresholdField t = .ok field) : ∃ f ∈ canonicalFacts, f.identifier = field := by
  unfold thresholdField at h
  dsimp only at h
  split at h
  · unfold metricFieldName at h
    dsimp only at h
    split at h
    · rename_i hid
      rw [Except.ok.inj h] at hid
      exact resolveCanonicalFact_mem hid
    · cases h
  · split at h
    · cases h
    · rename_i hfact
      obtain ⟨f, hf⟩ := Option.ne_none_iff_exists'.1 (by simpa using hfact)
      rw [Except.ok.inj h] at hf
      exact ⟨f, getCanonicalFact_some hf⟩

theorem inert_thresholdField {t : NumericalThreshold} {field : String}
    (h : thresholdField t = .ok field) : Inert field.toList := by
  obtain ⟨f, hf, rfl⟩ := thresholdField_mem h
  exact inert_of_word (identifier_word hf)

theorem cleanCode_factTerm {t : NumericalThreshold} {field : String}
    (h : thresholdField t = .ok field) : (factTerm field).CleanCode := by
  show Clean (Term.input ["facts", field]).text.toList
  have htext : (Term.input ["facts", field]).text.toList = "input.facts.".toList ++ field.toList := by
    simp [Term.text]
  rw [htext, clean_append]
  exact ⟨by decide, (inert_thresholdField h).clean⟩

theorem cleanCode_regoScalar (d : Decimal) : (Term.lit (regoScalar d)).CleanCode := by
  unfold regoScalar
  split
  · exact (inert_toString_int _).clean
  · exact (inert_repr d).clean

theorem cleanCode_condName (i : Nat) : (Term.rule (condName i)).CleanCode := by
  show Clean (condName i).toList
  rw [toList_condName]
  exact clean_append.2 ⟨(by decide : Clean "cond_".toList), (inert_toDigits i).clean⟩

theorem cleanCode_jsonText (s : Option String) : (Term.lit (jsonText s)).CleanCode := by
  cases s with
  | none => exact (by decide : Clean "null".toList)
  | some s => trivial

/-! ## Lines that are read as meant -/

/-- A text has no line break in it. -/
def OneLine (s : String) : Prop := '\n' ∉ s.toList

instance (s : String) : Decidable (OneLine s) := inferInstanceAs (Decidable (¬ _))

theorem oneLine_append {a b : String} : OneLine (a ++ b) ↔ OneLine a ∧ OneLine b := by
  simp [OneLine]

theorem soundIff_codeLine {s : String} (h : Clean s.toList) : SoundIff (codeLine s).pieces True :=
  .code_cons h (.code (by decide))

theorem soundIff_codeLines (ss : List String) (h : ∀ s ∈ ss, Clean s.toList) :
    SoundIff ((ss.map codeLine).flatMap Line.pieces) True := by
  rw [List.flatMap_map]
  exact (SoundIff.flatMap fun s hs => soundIff_codeLine (h s hs)).congr (by simp)

theorem soundIff_commentLine {s : String} (h : s.toList.head? = some '#') :
    SoundIff (commentLine s).pieces (OneLine s) := by
  obtain ⟨cs, hcs⟩ := List.head?_eq_some_iff.1 h
  refine (SoundIff.comment _).congr ?_
  simp [OneLine, hcs]

theorem soundIff_line {ps : List Piece} {P : Prop} (h : SoundIff ps P) :
    SoundIff (Line.code ps).pieces P :=
  h.append_code (by decide)

theorem soundIff_ifPieces {α : Type} {head : String} (hhead : Clean head.toList)
    {f : α → List Piece} {P : α → Prop} {body : List α} (h : ∀ a ∈ body, SoundIff (f a) (P a)) :
    SoundIff ((ifPieces head (body.map f)).flatMap Line.pieces) (∀ a ∈ body, P a) := by
  have hopen : Clean (head ++ " if \x7b").toList := by
    rw [String.toList_append, clean_append]
    exact ⟨hhead, by decide⟩
  have hbody : SoundIff (body.flatMap fun a => (Line.code (.code indent.toList :: f a)).pieces)
      (∀ a ∈ body, P a) :=
    .flatMap fun a ha => soundIff_line (.code_cons (by decide) (h a ha))
  have hclose : SoundIff ([codeLine "\x7d", codeLine ""].flatMap Line.pieces) True :=
    soundIff_codeLines ["\x7d", ""] (by decide)
  have hall := (soundIff_codeLine hopen).append (hbody.append hclose)
  simp only [true_and, and_true] at hall
  simpa [ifPieces, List.flatMap_append, List.flatMap_map, Function.comp_def] using hall

/-- The lines of a body. -/
theorem soundIff_body {head : String} (hhead : Clean head.toList) {body : List Literal}
    (h : ∀ l ∈ body, l.CleanCode) :
    SoundIff ((ifPieces head (body.map (·.pieces))).flatMap Line.pieces)
      (∀ l ∈ body, AllClosed l.bareTexts) :=
  soundIff_ifPieces hhead fun l hl => l.soundIff (h l hl)

/-! ## Guard and conditions -/

theorem listBareTexts_quoted (es : List String) :
    Term.listBareTexts (es.map .quoted) = es ∧ Term.ListCleanCode (es.map .quoted) := by
  induction es with
  | nil => exact ⟨rfl, trivial⟩
  | cons e es ih => exact ⟨congrArg (e :: ·) ih.1, trivial, ih.2⟩

/-- The guard has the entity names as its bare texts. -/
theorem bareTexts_entityGuard {rule : ExtractedComplianceRule} {g : Literal}
    (h : entityGuard rule = some g) : g.bareTexts = guardEntities rule ∧ g.CleanCode := by
  have hinput : (Term.input ["entity_type"]).CleanCode :=
    (by decide : Clean (Term.input ["entity_type"]).text.toList)
  unfold entityGuard at h
  split at h
  · cases h
  · rename_i e hes
    cases h
    exact ⟨hes.symm, hinput, trivial⟩
  · cases h
    have hset := listBareTexts_quoted (guardEntities rule)
    exact ⟨hset.1, hinput, hset.2⟩

theorem soundIff_guard (rule : ExtractedComplianceRule) :
    SoundIff (((entityGuard rule).toList.flatMap fun g =>
        [.code (.code "entity_matches if \x7b ".toList :: (g.pieces ++ [.code " \x7d".toList])),
          codeLine ""]).flatMap Line.pieces) (AllClosed (guardEntities rule)) := by
  cases hg : entityGuard rule with
  | none =>
    rw [guardEntities_eq_nil_iff.1 hg]
    exact soundIff_constant .nil
  | some g =>
    obtain ⟨htexts, hclean⟩ := bareTexts_entityGuard hg
    have hline := soundIff_line (.code_cons (s := "entity_matches if \x7b ".toList) (by decide)
      ((g.soundIff hclean).append_code (s := " \x7d".toList) (by decide)))
    rw [htexts] at hline
    have hall := hline.append (soundIff_codeLine (s := "") (by decide))
    simpa using hall

/-- The parts of a condition have no bare texts. -/
theorem soundIff_conditionPieces {t : NumericalThreshold} {body : List Literal}
    (h : passCondition t = .ok body) : ∀ ps ∈ conditionPieces body, SoundIff ps True := by
  have hcmp : ∀ {f : String} (op : CmpOp) (d : Decimal), thresholdField t = .ok f →
      SoundIff (Literal.cmp op (factTerm f) (.lit (regoScalar d))).pieces True := by
    intro f op d hf
    have hsound := Literal.soundIff (l := .cmp op (factTerm f) (.lit (regoScalar d)))
      ⟨cleanCode_factTerm hf, cleanCode_regoScalar d⟩
    exact hsound.congr (iff_of_true allClosed_nil trivial)
  unfold passCondition at h
  obtain ⟨f, hf, h⟩ := bind_ok_iff.1 h
  split at h
  · obtain ⟨u, hu, h⟩ := bind_ok_iff.1 h
    cases h
    intro ps hps
    simp only [conditionPieces, List.map_cons, List.map_nil, List.mem_cons, List.not_mem_nil,
      or_false] at hps
    rcases hps with rfl | rfl
    · exact hcmp _ _ hf
    · exact .code_cons (by decide) (hcmp _ _ hf)
  · cases h
    intro ps hps
    rw [List.mem_singleton.1 hps]
    exact hcmp _ _ hf

theorem oneLine_conditionComment (t : NumericalThreshold) :
    OneLine (conditionComment t) ↔ OneLine t.metric ∧ OneLine t.unit := by
  have hop : OneLine t.operator.value := by cases t.operator <;> decide
  have hvalue : OneLine t.value.repr := (inert_repr t.value).newline_notMem
  simp only [conditionComment, oneLine_append, hop, hvalue, and_true]
  rw [and_iff_right (by decide : OneLine "# "), and_iff_left (by decide : OneLine " ")]
  rw [and_iff_left (by decide : OneLine " ")]

theorem soundIff_conditions {rule : ExtractedComplianceRule} {p : RegoParts} (hp : PartsOf rule p) :
    SoundIff ((p.conditions.zipIdx.flatMap fun c =>
        commentLine (conditionComment c.1.1) ::
          ifPieces (condName c.2) (conditionPieces c.1.2)).flatMap Line.pieces)
      (∀ t ∈ rule.deterministicLogic, OneLine t.metric ∧ OneLine t.unit) := by
  rw [← forall_conditions_iff hp (q := fun t => OneLine t.metric ∧ OneLine t.unit),
    List.flatMap_assoc]
  refine .flatMap fun c hc => ?_
  have hcond := (hp.condition _ (List.mem_of_getElem? (List.mem_zipIdx_iff_getElem?.1 hc))).2
  have hbody := soundIff_ifPieces (f := id) (cleanCode_condName c.2)
    (soundIff_conditionPieces hcond)
  rw [List.map_id] at hbody
  have hcomment := soundIff_commentLine (s := conditionComment c.1.1) (by simp [conditionComment])
  rw [List.flatMap_cons]
  exact (hcomment.append hbody).congr (by simp [oneLine_conditionComment])

/-! ## Violations -/

/-- The formats of a threshold's messages. -/
def messageFormats (t : NumericalThreshold) : List String :=
  let scope := if truthy t.appliesTo then " for " ++ t.appliesTo.getD "" else ""
  if t.operator = .range then
    ["below the required minimum", "above the allowed maximum"].map fun relation =>
      "%s is %v %s, " ++ relation ++ " of %v %s" ++ scope ++ " (clause \x7bclause\x7d)"
  else
    ["%s is %v %s, which fails the required condition (%s %v %s" ++ scope ++
      ", clause \x7bclause\x7d)"]

/-- The texts that a threshold's messages put between quotes, with the clause filled in. -/
def messageTexts (clause : String) (t : NumericalThreshold) : List String :=
  (messageFormats t ++ [t.metric, t.unit]).map (replace "\x7bclause\x7d" clause)

/-- The violation bodies of a threshold have the texts of its messages as their bare texts. -/
theorem bareTexts_violationClauses {t : NumericalThreshold} {clause : String}
    {vs : List (Literal × Term)} (h : violationClauses t clause = .ok vs) :
    (∀ v ∈ vs, v.1.bareTexts = [] ∧ v.1.CleanCode ∧ v.2.CleanCode) ∧
      ((∀ v ∈ vs, AllClosed v.2.bareTexts) ↔ AllClosed (messageTexts clause t)) := by
  have hop : Closed (replace "\x7bclause\x7d" clause t.operator.value).toList := by
    rw [replace, String.toList_ofList, Closed]
    cases t.operator <;> rfl
  unfold violationClauses at h
  obtain ⟨f, hf, h⟩ := bind_ok_iff.1 h
  have hfact := cleanCode_factTerm hf
  dsimp only at h
  by_cases hr : t.operator = .range
  · rw [if_pos hr] at h
    obtain ⟨u, hu, h⟩ := bind_ok_iff.1 h
    cases h
    refine ⟨?_, ?_⟩
    · simp only [List.forall_mem_cons]
      exact ⟨⟨rfl, ⟨hfact, cleanCode_regoScalar _⟩, trivial, trivial, hfact, trivial,
        cleanCode_regoScalar _, trivial, trivial⟩, ⟨rfl, ⟨hfact, cleanCode_regoScalar _⟩, trivial,
        trivial, hfact, trivial, cleanCode_regoScalar _, trivial, trivial⟩, by simp⟩
    · simp only [AllClosed, Term.bareTexts, Term.listBareTexts, factTerm, messageTexts,
        messageFormats, hr, if_true, List.map_cons, List.map_nil, List.append_nil, List.nil_append,
        List.cons_append, List.forall_mem_cons, List.not_mem_nil, false_imp_iff, implies_true,
        and_true]
      constructor
      · rintro ⟨⟨hlow, hmetric, hunit, -⟩, hhigh, -⟩
        exact ⟨hlow, hhigh, hmetric, hunit⟩
      · rintro ⟨hlow, hhigh, hmetric, hunit⟩
        exact ⟨⟨hlow, hmetric, hunit, hunit⟩, hhigh, hmetric, hunit, hunit⟩
  · rw [if_neg hr] at h
    cases h
    refine ⟨?_, ?_⟩
    · simp only [List.forall_mem_cons]
      exact ⟨⟨rfl, ⟨hfact, cleanCode_regoScalar _⟩, trivial, trivial, hfact, trivial, trivial,
        cleanCode_regoScalar _, trivial, trivial⟩, by simp⟩
    · simp only [List.forall_mem_cons]
      simp [AllClosed, Term.bareTexts, Term.listBareTexts, factTerm, messageTexts, messageFormats, hr,
        hop]

theorem forall_violations_iff {rule : ExtractedComplianceRule} {p : RegoParts}
    (hp : PartsOf rule p) {q : Literal × Term → Prop} :
    (∀ v ∈ p.violations, q v) ↔ ∀ t ∈ rule.deterministicLogic, ∀ vs,
      violationClauses t p.clause = .ok vs → ∀ v ∈ vs, q v := by
  constructor
  · intro h t ht vs hvs v hv
    obtain ⟨vs', hvs', hin⟩ := hp.violations t ht
    obtain rfl : vs = vs' := Except.ok.inj (hvs.symm.trans hvs')
    exact h v (hin v hv)
  · intro h v hv
    obtain ⟨t, ht, vs, hvs, hv⟩ := hp.violation v hv
    exact h t ht vs hvs v hv

theorem guardBody_clean {p : RegoParts} {l : Literal} (hl : l ∈ p.guardBody) :
    l.CleanCode ∧ AllClosed l.bareTexts := by
  unfold RegoParts.guardBody at hl
  split at hl
  · rw [List.mem_singleton.1 hl]
    exact ⟨(by decide : Clean "entity_matches".toList), allClosed_nil⟩
  · cases hl

theorem soundIff_violations {rule : ExtractedComplianceRule} {p : RegoParts} (hp : PartsOf rule p) :
    SoundIff ((p.violations.flatMap fun v => ifPieces "violation contains msg"
        ((p.guardBody ++ [v.1, .assign "msg" v.2]).map (·.pieces))).flatMap Line.pieces)
      (∀ t ∈ rule.deterministicLogic, AllClosed (messageTexts p.clause t)) := by
  have hclauses : ∀ v ∈ p.violations, v.1.bareTexts = [] ∧ v.1.CleanCode ∧ v.2.CleanCode :=
    (forall_violations_iff hp).2 fun t _ vs hvs => (bareTexts_violationClauses hvs).1
  have hbodies : SoundIff ((p.violations.flatMap fun v => ifPieces "violation contains msg"
      ((p.guardBody ++ [v.1, .assign "msg" v.2]).map (·.pieces))).flatMap Line.pieces)
      (∀ v ∈ p.violations, AllClosed v.2.bareTexts) := by
    rw [List.flatMap_assoc]
    refine .flatMap fun v hv => ?_
    obtain ⟨htexts, hcond, hmessage⟩ := hclauses v hv
    have hclean : ∀ l ∈ p.guardBody ++ [v.1, .assign "msg" v.2], l.CleanCode := by
      intro l hl
      rcases List.mem_append.1 hl with hl | hl
      · exact (guardBody_clean hl).1
      · simp only [List.mem_cons, List.not_mem_nil, or_false] at hl
        rcases hl with rfl | rfl
        · exact hcond
        · exact ⟨by decide, hmessage⟩
    refine (soundIff_body (by decide) hclean).congr ?_
    have hassign : (Literal.assign "msg" v.2).bareTexts = v.2.bareTexts := rfl
    rw [List.forall_mem_append, and_iff_right fun l hl => (guardBody_clean hl).2]
    simp [htexts, allClosed_nil, hassign]
  refine hbodies.congr ((forall_violations_iff hp).trans ?_)
  refine forall₂_congr fun t ht => ?_
  obtain ⟨vs, hvs, -⟩ := hp.violations t ht
  rw [← (bareTexts_violationClauses hvs).2]
  refine ⟨fun h => h vs hvs, fun h vs' hvs' => ?_⟩
  obtain rfl : vs = vs' := Except.ok.inj (hvs.symm.trans hvs')
  exact h

/-! ## The rest of the module -/

theorem soundIff_allow (p : RegoParts) :
    SoundIff ((ifPieces "allow" (p.allowBody.map (·.pieces))).flatMap Line.pieces) True := by
  have hbody : ∀ l ∈ p.allowBody, l.CleanCode ∧ AllClosed l.bareTexts := by
    intro l hl
    rcases List.mem_append.1 hl with hl | hl
    · exact guardBody_clean hl
    · obtain ⟨c, -, rfl⟩ := List.mem_map.1 hl
      exact ⟨cleanCode_condName c.2, allClosed_nil⟩
  exact (soundIff_body (by decide) fun l hl => (hbody l hl).1).congr
    (iff_of_true (fun l hl => (hbody l hl).2) trivial)

theorem soundIff_decision (rule : ExtractedComplianceRule) (ruleVersion : Int) (p : RegoParts) :
    SoundIff (Line.code (.code "decision := ".toList ::
        (decisionTerm rule ruleVersion p).pieces)).pieces
      (AllClosed [rule.ruleId, p.clause, rule.sourceSha256, p.digest]) := by
  have hversion : (Term.lit (.int ruleVersion)).CleanCode := (inert_toString_int ruleVersion).clean
  have hobligation : Closed rule.obligationType.value.toList := by
    cases rule.obligationType <;> decide
  have hclean : (decisionTerm rule ruleVersion p).CleanCode :=
    ⟨by decide, (by decide : Clean "allow".toList), by decide, (by decide : Clean "violation".toList),
      by decide, trivial, by decide, hversion, by decide, trivial, by decide, cleanCode_jsonText _,
      by decide, trivial, by decide, trivial, by decide, cleanCode_jsonText _, by decide,
      cleanCode_jsonText _, by decide, trivial, trivial⟩
  refine soundIff_line (.code_cons (by decide) ((Term.soundIff hclean).congr ?_))
  simp [AllClosed, decisionTerm, Term.bareTexts, Term.fieldBareTexts, hobligation]

/-! ## Metadata -/

/-- A missing or empty text is as good as an empty one. -/
theorem orText_iff {P : String → Prop} {d : String} (hempty : P "") (hd : P d) (o : Option String) :
    P (orText o d) ↔ P (o.getD "") := by
  cases o with
  | none => exact iff_of_true hd hempty
  | some s =>
    by_cases hs : s = ""
    · simp [orText, hs, hempty, hd]
    · simp [orText, hs]

theorem oneLine_join (l : List String) : OneLine (String.join l) ↔ ∀ s ∈ l, OneLine s := by
  simp [OneLine]

theorem oneLine_intercalate : ∀ l : List String,
    OneLine (", ".intercalate l) ↔ ∀ s ∈ l, OneLine s
  | [] => by decide
  | [s] => by simp
  | s :: t :: l => by
    have hrest := oneLine_intercalate (t :: l)
    have hsep : OneLine ", " := by decide
    rw [String.intercalate_cons_cons, oneLine_append, oneLine_append, hrest]
    simp [hsep]

theorem oneLine_optional (key : String) (hkey : OneLine key) (s : Option String) :
    (∀ l ∈ (if truthy s then ["#   " ++ key ++ ": " ++ s.getD ""] else []), OneLine l) ↔
      OneLine (s.getD "") := by
  have hsign : OneLine "#   " := by decide
  have hcolon : OneLine ": " := by decide
  by_cases h : truthy s
  · rw [if_pos h]
    simp [oneLine_append, hkey, hsign, hcolon]
  · rw [if_neg h]
    cases s with
    | none => decide
    | some t =>
      obtain rfl : t = "" := by simpa [truthy] using h
      decide

theorem inert_isoformat (d : DateTime) : Inert d.isoformat.toList := by
  have hnil : Inert [] := by decide
  have hdigit : ∀ n, Text.digit n ≠ '"' ∧ Text.digit n ≠ '#' ∧ Text.digit n ≠ '\n' := by
    intro n
    have hlt : ∀ k, k < 10 →
        Nat.digitChar k ≠ '"' ∧ Nat.digitChar k ≠ '#' ∧ Nat.digitChar k ≠ '\n' := by decide
    exact hlt _ (Nat.mod_lt _ (by decide))
  have hpad2 : ∀ n, Inert (Text.pad2 n) := by simp [Text.pad2, inert_cons, hdigit, hnil]
  have hpad4 : ∀ n, Inert (Text.pad4 n) := by simp [Text.pad4, inert_cons, hdigit, hnil]
  have hpad6 : ∀ n, Inert (Text.pad6 n) := by simp [Text.pad6, inert_cons, hdigit, hnil]
  have hfraction : ∀ n, Inert (if n = 0 then [] else '.' :: Text.pad6 n) := by
    intro n
    split
    · exact hnil
    · exact inert_cons.2 ⟨by decide, hpad6 n⟩
  simp [DateTime.isoformat, isoChars, inert_append, inert_cons, hpad2, hpad4, hfraction, hnil]

/-- The texts of the metadata. -/
theorem oneLine_metadata (rule : ExtractedComplianceRule) (ruleVersion : Int)
    (generatedAt : DateTime) (p : RegoParts) :
    (∀ l ∈ metadataLines rule ruleVersion generatedAt p, OneLine l) ↔
      (∀ s ∈ [rule.ruleId, p.clause, orText rule.circularNumber "unknown", rule.sourceSha256,
        rule.sourceDocumentSha256.getD "", rule.extractedTextSha256.getD "", p.digest], OneLine s) ∧
      ∀ t ∈ rule.deterministicLogic, OneLine t.metric := by
  have hversion : OneLine (toString ruleVersion) := (inert_toString_int ruleVersion).newline_notMem
  have hobligation : OneLine rule.obligationType.value := by cases rule.obligationType <;> decide
  have hgenerated : OneLine generatedAt.isoformat := (inert_isoformat generatedAt).newline_notMem
  have hdocument := oneLine_optional "source_document_sha256" (by decide)
    rule.sourceDocumentSha256
  have htext := oneLine_optional "extracted_text_sha256" (by decide)
    rule.extractedTextSha256
  have htitle : OneLine (if (rule.deterministicLogic.map (·.metric)).length = 1 then
        String.join (rule.deterministicLogic.map (·.metric)) ++ " Compliance Rule"
      else "Multi-Condition Compliance Rule (" ++
        ", ".intercalate (rule.deterministicLogic.map (·.metric)) ++ ")") ↔
      ∀ t ∈ rule.deterministicLogic, OneLine t.metric := by
    split
    · rw [oneLine_append, oneLine_join, and_iff_left (by decide : OneLine " Compliance Rule")]
      simp
    · rw [oneLine_append, oneLine_append, oneLine_intercalate,
        and_iff_right (by decide : OneLine "Multi-Condition Compliance Rule ("),
        and_iff_left (by decide : OneLine ")")]
      simp
  simp only [metadataLines, List.forall_mem_append, List.forall_mem_cons, hdocument, htext,
    oneLine_append, htitle, hversion, hobligation, hgenerated, List.not_mem_nil, false_imp_iff,
    implies_true, and_true]
  constructor
  · rintro ⟨⟨⟨⟨-, ⟨-, hmetric⟩, ⟨-, hclause⟩, -, ⟨-, hid⟩, -, -, ⟨-, hcircular⟩, -, hsource⟩, hdoc⟩,
      hextracted⟩, ⟨-, hdigest⟩, -⟩
    exact ⟨⟨hid, hclause, hcircular, hsource, hdoc, hextracted, hdigest⟩, hmetric⟩
  · rintro ⟨⟨hid, hclause, hcircular, hsource, hdoc, hextracted, hdigest⟩, hmetric⟩
    exact ⟨⟨⟨⟨by decide, ⟨by decide, hmetric⟩, ⟨by decide, hclause⟩, by decide, ⟨by decide, hid⟩,
      by decide, ⟨by decide, hclause⟩, ⟨by decide, hcircular⟩, by decide, hsource⟩, hdoc⟩,
      hextracted⟩, ⟨by decide, hdigest⟩, by decide, ⟨by decide, by decide⟩, by decide⟩

theorem soundIff_metadata (rule : ExtractedComplianceRule) (ruleVersion : Int)
    (generatedAt : DateTime) (p : RegoParts) :
    SoundIff (((metadataLines rule ruleVersion generatedAt p).map commentLine).flatMap Line.pieces)
      (∀ l ∈ metadataLines rule ruleVersion generatedAt p, OneLine l) := by
  rw [List.flatMap_map]
  exact .flatMap fun l hl => soundIff_commentLine (head_metadataLines l hl)

/-! ## The package -/

theorem slugOr_word (number : Option String) {default : String}
    (hd : Words.join '_' (Words.words isAlnum default.toList) = default.toList) :
    ∀ c ∈ (slugOr number default).toList, isWordChar c = true := by
  rw [slugOr_toList number hd]
  intro c hc
  rcases Words.mem_join hc with rfl | ⟨w, hw, hc⟩
  · decide
  · have halnum : (c.isLower || c.isDigit) = true := numberWords_mem hw c hc
    have hword : (c.isUpper || c.isLower || c.isDigit) = true := by
      rcases Bool.or_eq_true_iff.1 halnum with h | h
      · simp [h]
      · simp [h]
    simp [isWordChar, show c.isAlphanum = true from hword]

/-- The package path is made of word characters exactly when the domain is. -/
theorem package_word_iff (rule : ExtractedComplianceRule) :
    (∀ c ∈ (regoPackageName rule.regulator rule.domain rule.circularNumber
        rule.clauseNumber).toList, isWordChar c = true) ↔
      ∀ c ∈ rule.domain.toList, isWordChar c = true := by
  have hregulator : ∀ c ∈ rule.regulator.value.toList, isWordChar c = true := by
    refine List.all_eq_true.1 ?_
    cases rule.regulator <;> decide
  have hcircular := slugOr_word rule.circularNumber join_words_circular
  have hclause := slugOr_word rule.clauseNumber join_words_clause
  rw [regoPackageName]
  simp only [String.toList_append, List.forall_mem_append]
  constructor
  · rintro ⟨⟨⟨⟨⟨-, hdomain⟩, -⟩, -⟩, -⟩, -⟩
    exact hdomain
  · intro hdomain
    exact ⟨⟨⟨⟨⟨⟨hregulator, List.all_eq_true.1 (by decide)⟩, hdomain⟩,
      List.all_eq_true.1 (by decide)⟩, hcircular⟩, List.all_eq_true.1 (by decide)⟩, hclause⟩

/-! ## The module -/

/-- The texts of a rule that are put in comments. -/
def commentTexts (rule : ExtractedComplianceRule) : List String :=
  [rule.ruleId, rule.clauseNumber.getD "", rule.circularNumber.getD "", rule.sourceSha256,
    rule.sourceDocumentSha256.getD "", rule.extractedTextSha256.getD "",
    rule.canonicalFactsDigest.getD ""] ++
  rule.deterministicLogic.flatMap fun t => [t.metric, t.unit]

/-- The texts of a rule that are put between quotes as they are. -/
def literalTexts (rule : ExtractedComplianceRule) : List String :=
  [rule.ruleId, rule.clauseNumber.getD "", rule.sourceSha256,
    rule.canonicalFactsDigest.getD ""] ++
  guardEntities rule ++
  rule.deterministicLogic.flatMap (messageTexts (orText rule.clauseNumber "unscoped"))

/-- The texts of a rule stay where the compiler puts them: in the package path, in a comment, in a
string literal. -/
structure SafeTexts (rule : ExtractedComplianceRule) : Prop where
  domain : ∀ c ∈ rule.domain.toList, isWordChar c = true
  comments : ∀ s ∈ commentTexts rule, OneLine s
  literals : AllClosed (literalTexts rule)

theorem closed_of_forall {s : List Char} (h : ∀ c ∈ s, c ≠ '"' ∧ c ≠ '\\') : Closed s := by
  induction s with
  | nil => rfl
  | cons c cs ih =>
    obtain ⟨hq, hb⟩ := h c List.mem_cons_self
    have hcs : closedFrom false cs = true := ih fun d hd => h d (List.mem_cons_of_mem _ hd)
    simpa [Closed, closedFrom, hq, hb] using hcs

/-- A digest is safe in a comment and between quotes. -/
theorem hexdigest_safe (s : String) :
    OneLine (Sha256.hexdigest s) ∧ Closed (Sha256.hexdigest s).toList := by
  have hdigit : ∀ k, k < 16 →
      Nat.digitChar k ≠ '\n' ∧ Nat.digitChar k ≠ '"' ∧ Nat.digitChar k ≠ '\\' := by decide
  have hchars : ∀ c ∈ (Sha256.hexdigest s).toList, c ≠ '\n' ∧ c ≠ '"' ∧ c ≠ '\\' := by
    intro c hc
    rw [Sha256.hexdigest, String.toList_ofList, List.mem_flatMap] at hc
    obtain ⟨w, -, hc⟩ := hc
    obtain ⟨i, -, rfl⟩ := List.mem_map.1 hc
    exact hdigit _ (Nat.mod_lt _ (by decide))
  exact ⟨fun hn => (hchars _ hn).1 rfl, closed_of_forall fun c hc => (hchars c hc).2⟩

theorem oneLine_commentTexts_iff {rule : ExtractedComplianceRule} :
    (∀ s ∈ commentTexts rule, OneLine s) ↔
      (∀ s ∈ [rule.ruleId, orText rule.clauseNumber "unscoped",
        orText rule.circularNumber "unknown", rule.sourceSha256,
        rule.sourceDocumentSha256.getD "", rule.extractedTextSha256.getD "",
        orText rule.canonicalFactsDigest (computeCanonicalFactsDigest rule.deterministicLogic)],
        OneLine s) ∧
      ∀ t ∈ rule.deterministicLogic, OneLine t.metric ∧ OneLine t.unit := by
  have hor : ∀ (o : Option String) {d : String}, OneLine d →
      (OneLine (orText o d) ↔ OneLine (o.getD "")) := fun o _ hd => orText_iff (by decide) hd o
  have hdigest : OneLine (computeCanonicalFactsDigest rule.deterministicLogic) :=
    (hexdigest_safe _).1
  rw [commentTexts, List.forall_mem_append]
  refine and_congr ?_ ?_
  · simp only [List.forall_mem_cons, hor rule.clauseNumber (by decide : OneLine "unscoped"),
      hor rule.circularNumber (by decide : OneLine "unknown"),
      hor rule.canonicalFactsDigest hdigest]
  · simp only [List.mem_flatMap, List.mem_cons, List.not_mem_nil, or_false, forall_exists_index,
      and_imp]
    refine ⟨fun h t ht => ⟨h _ t ht (.inl rfl), h _ t ht (.inr rfl)⟩, fun h s t ht hs => ?_⟩
    rcases hs with rfl | rfl
    · exact (h t ht).1
    · exact (h t ht).2

theorem allClosed_literalTexts_iff {rule : ExtractedComplianceRule} :
    AllClosed (literalTexts rule) ↔
      AllClosed [rule.ruleId, orText rule.clauseNumber "unscoped", rule.sourceSha256,
        orText rule.canonicalFactsDigest (computeCanonicalFactsDigest rule.deterministicLogic)] ∧
      AllClosed (guardEntities rule) ∧
      ∀ t ∈ rule.deterministicLogic,
        AllClosed (messageTexts (orText rule.clauseNumber "unscoped") t) := by
  have hor : ∀ (o : Option String) {d : String}, Closed d.toList →
      (Closed (orText o d).toList ↔ Closed (o.getD "").toList) :=
    fun o _ hd => orText_iff (P := fun s => Closed s.toList) (by decide) hd o
  have hdigest : Closed (computeCanonicalFactsDigest rule.deterministicLogic).toList :=
    (hexdigest_safe _).2
  rw [literalTexts, allClosed_append, allClosed_append, and_assoc]
  refine and_congr ?_ (and_congr_right fun _ => ?_)
  · simp only [AllClosed, List.forall_mem_cons,
      hor rule.clauseNumber (by decide : Closed "unscoped".toList),
      hor rule.canonicalFactsDigest hdigest]
  · simp only [AllClosed, List.mem_flatMap, forall_exists_index, and_imp]
    exact ⟨fun h t ht s hs => h s t ht hs, fun h s t ht hs => h t ht s hs⟩

theorem soundIff_modulePieces {rule : ExtractedComplianceRule} {p : RegoParts}
    (h : regoParts rule = .ok p) (ruleVersion : Int) (generatedAt : DateTime) :
    SoundIff (modulePieces rule ruleVersion generatedAt p) (SafeTexts rule) := by
  have hp := partsOf h
  obtain ⟨hpackage, hclause, hdigest⟩ := regoParts_head h
  have hheader : SoundIff ([.code [.code "package ".toList, .name p.package.toList],
      codeLine "", codeLine "import rego.v1", codeLine "", codeLine "default allow := false",
      codeLine ""].flatMap Line.pieces) (∀ c ∈ rule.domain.toList, isWordChar c = true) := by
    rw [← package_word_iff, ← hpackage, List.flatMap_cons]
    have hname := soundIff_line (.code_cons (s := "package ".toList) (by decide)
      (.name p.package.toList))
    have hrest := soundIff_codeLines
      ["", "import rego.v1", "", "default allow := false", ""] (by decide)
    exact (hname.append hrest).congr (iff_of_eq (and_true _))
  have hfooter : SoundIff ([codeLine "deny := violation", codeLine "",
      .code (.code "decision := ".toList :: (decisionTerm rule ruleVersion p).pieces)].flatMap
        Line.pieces) (AllClosed [rule.ruleId, p.clause, rule.sourceSha256, p.digest]) := by
    have hcode := soundIff_codeLines ["deny := violation", ""] (by decide)
    have hall := hcode.append (soundIff_decision rule ruleVersion p)
    simpa using hall
  have hguard := soundIff_guard rule
  rw [← hp.guard] at hguard
  have hall := ((((((soundIff_metadata rule ruleVersion generatedAt p).append hheader).append
    hguard).append (soundIff_conditions hp)).append (soundIff_allow p)).append
    (soundIff_violations hp)).append hfooter
  rw [oneLine_metadata, hclause, hdigest] at hall
  rw [modulePieces, moduleLines]
  simp only [List.flatMap_append]
  refine hall.congr ?_
  constructor
  · rintro ⟨⟨⟨⟨⟨⟨⟨hmeta, -⟩, hdomain⟩, hentities⟩, hconditions⟩, -⟩, hmessages⟩, hdecision⟩
    exact ⟨hdomain, oneLine_commentTexts_iff.2 ⟨hmeta, hconditions⟩,
      allClosed_literalTexts_iff.2 ⟨hdecision, hentities, hmessages⟩⟩
  · rintro ⟨hdomain, hcomments, hliterals⟩
    obtain ⟨hmeta, hconditions⟩ := oneLine_commentTexts_iff.1 hcomments
    obtain ⟨hdecision, hentities, hmessages⟩ := allClosed_literalTexts_iff.1 hliterals
    exact ⟨⟨⟨⟨⟨⟨⟨hmeta, fun t ht => (hconditions t ht).1⟩, hdomain⟩, hentities⟩, hconditions⟩,
      trivial⟩, hmessages⟩, hdecision⟩

/-- **The text of a compiled module is read as it is meant exactly when the texts of the rule stay
where they are put.** -/
theorem regoCode_read_iff {rule : ExtractedComplianceRule} {p : RegoParts}
    (h : regoParts rule = .ok p) (ruleVersion : Int) (generatedAt : DateTime) :
    regions .code (compiledRego rule ruleVersion generatedAt p).regoCode.toList =
        intended (modulePieces rule ruleVersion generatedAt p) ↔ SafeTexts rule := by
  rw [← render_modulePieces]
  exact (soundIff_modulePieces h ruleVersion generatedAt).regions_iff

end RegEngine.Compiler
