import Mathlib.Computability.RegularExpressions
import RegEngine.Compiler.Models
import RegEngine.Lib.Python
import RegEngine.Lib.Sha256

/-!
# The canonical facts

`app/regulatory/facts.py`: the controlled vocabulary of fact identifiers and how a metric's name is
resolved to one. The patterns are matched on a normalised text, whose only white space is single
blanks. Display names, descriptions and data types are left out.
-/

namespace RegEngine.Compiler

open Lib Lib.Python Lib.Sha256

/-! ## Normalising -/

def normalizeMetricText (text : String) : String :=
  let cleaned := (lower (strip text)).toList.map fun c =>
    if c = '-' ∨ c = '_' ∨ c = '/' then ' ' else c
  let cleaned := subRuns (fun c => !(isAlnum c || isSpace c)) [' '] false cleaned
  String.ofList (stripChars isSpace (subRuns isSpace [' '] false cleaned))

def normalizeUnit (unit : String) : String :=
  let u := lower (strip unit)
  if u ∈ ["%", "pct", "percent", "per cent", "percentage"] then "%"
  else if u ∈ ["day", "days"] then "days"
  else if u ∈ ["hour", "hours", "hr", "hrs"] then "hours"
  else if u ∈ ["month", "months"] then "months"
  else if u ∈ ["week", "weeks"] then "weeks"
  else if u ∈ ["inr", "rs", "rs.", "₹", "rupees"] then "inr"
  else if u ∈ ["inr crore", "crore", "crores", "cr"] then "inr crore"
  else if u ∈ ["inr lakh", "lakh", "lakhs"] then "inr lakh"
  else u

/-! ## Patterns -/

abbrev Pattern := RegularExpression Char

namespace Pattern

/-- A literal text. -/
def text (s : String) : Pattern := (s.toList.map RegularExpression.char).foldr (· * ·) 1

/-- `\s*` and `\s+`. -/
def blanks : Pattern := .star (.char ' ')
def blanks1 : Pattern := .char ' ' * blanks

/-- `(?:r)?`. -/
def opt (r : Pattern) : Pattern := 1 + r

/-- `(?:a|b|…)`. -/
def oneOf (l : List Pattern) : Pattern := l.foldr (· + ·) 0

/-- A sequence of patterns. -/
def seq (l : List Pattern) : Pattern := l.foldr (· * ·) 1

/-- `(?:a\s+|b\s+|…)?`. -/
def before (words : List String) : Pattern := opt (oneOf (words.map fun w => text w * blanks1))

/-- `(?:\s+a|\s+b|…)?`. -/
def after (words : List Pattern) : Pattern := opt (oneOf (words.map fun w => blanks1 * w))

end Pattern

open Pattern

structure CanonicalFact where
  identifier : String
  allowedUnits : List String
  minValue : Option Decimal := some ⟨0, 0, by decide⟩
  maxValue : Option Decimal := none
  synonyms : List String
  regexPatterns : List Pattern := []

/-- `100.0`. -/
def hundred : Decimal := ⟨1, 2, by decide⟩

/-- `_CANONICAL_FACTS`, in the order of the table. -/
def canonicalFacts : List CanonicalFact :=
  [{ identifier := "upfront_margin_pct"
     allowedUnits := ["%", "pct", "percent", "per cent", "percentage"]
     maxValue := some hundred
     synonyms := ["upfront margin", "minimum upfront margin", "upfront margin percentage",
       "up front margin", "initial margin", "minimum initial margin", "upfront margin requirement",
       "margin upfront", "mandatory upfront margin", "minimum upfront margin required",
       "upfront margin rate", "margin", "minimum margin", "upfront margin collection",
       "client upfront margin"]
     regexPatterns :=
       [seq [before ["minimum", "mandatory", "client"], text "up", blanks, text "front", blanks1,
          text "margin", after [text "percentage", text "pct", text "requirement", text "rate",
            text "collection", text "required"]],
        seq [before ["minimum", "mandatory"], text "initial", blanks1, text "margin",
          after [text "requirement", text "percentage"]]] },
   { identifier := "client_collateral"
     allowedUnits := ["inr", "inr crore", "inr lakh", "crore", "lakh", "rs", "rs.", "₹", "rupees",
       "%", "pct"]
     synonyms := ["client collateral", "minimum client collateral", "client collateral collection",
       "client margin collateral", "collateral from clients", "client collateral requirement",
       "collateral of client", "client collateral amount", "minimum collateral",
       "client collateral balance", "collateral requirement", "client collateral deposit"]
     regexPatterns :=
       [seq [before ["minimum", "mandatory"], before ["client"], text "collateral",
          after [seq [text "from", blanks1, text "clients"], text "collection", text "balance",
            text "amount", text "deposit"], after [text "requirement"]],
        seq [before ["minimum", "mandatory"], text "collateral", blanks1, text "of", blanks1,
          text "client"]] },
   { identifier := "peak_margin"
     allowedUnits := ["%", "pct", "percent", "per cent", "percentage", "inr", "inr crore",
       "inr lakh", "crore", "lakh"]
     maxValue := some hundred
     synonyms := ["peak margin", "minimum peak margin", "peak margin requirement",
       "peak margin collection", "intraday peak margin", "intra day peak margin",
       "peak intraday margin", "peak margin percentage", "peak margin pct",
       "peak margin obligation", "peak margin collection requirement"]
     regexPatterns :=
       [seq [before ["minimum", "mandatory"],
          opt (text "intraday" * blanks1 + seq [text "intra", blanks, text "day", blanks1]),
          text "peak", blanks1, text "margin", after [text "percentage", text "pct",
            text "requirement", text "collection", text "obligation"]]] },
   { identifier := "collateral_reporting"
     allowedUnits := ["days", "day", "hours", "hour", "months", "month", "times", "t+1", "t+2",
       "daily"]
     synonyms := ["collateral reporting", "client collateral reporting", "margin reporting",
       "collateral reporting frequency", "reporting of collateral", "collateral report cadence",
       "collateral reporting timeline", "daily collateral reporting",
       "reporting of client collateral", "margin reporting timeline",
       "collateral reporting schedule"]
     regexPatterns :=
       [seq [before ["client", "daily"], oneOf [text "collateral", text "margin"], blanks1,
          text "reporting", after [text "frequency", text "timeline", text "cadence",
            text "schedule"]],
        seq [text "reporting", blanks1, text "of", blanks1, before ["client"],
          text "collateral"]] },
   { identifier := "reporting_deadline"
     allowedUnits := ["days", "day", "hours", "hour", "months", "month", "weeks", "week"]
     synonyms := ["reporting deadline", "deadline for reporting", "reporting timeline",
       "submission deadline", "compliance reporting deadline", "filing deadline",
       "reporting timeframe", "time limit for reporting", "report submission deadline",
       "statutory reporting deadline", "regulatory reporting deadline", "deadline for submission"]
     regexPatterns :=
       [seq [before ["compliance", "statutory", "regulatory", "report"],
          oneOf ([text "reporting", text "filing", text "submission"].map fun w =>
            seq [w, blanks1, text "deadline"])],
        seq [oneOf [text "deadline", text "timeline", text "timeframe"], blanks1, text "for",
          blanks1, oneOf [text "reporting", text "submission", text "filing"]]] },
   { identifier := "net_worth_inr_crore"
     allowedUnits := ["inr crore", "crore", "crores", "inr lakh", "lakh", "inr", "rs"]
     synonyms := ["net worth", "minimum net worth", "net worth requirement", "networth",
       "minimum networth"]
     regexPatterns :=
       [seq [before ["minimum"], text "net", blanks, text "worth", after [text "requirement"]]] },
   { identifier := "settlement_window_days"
     allowedUnits := ["days", "day", "hours"]
     synonyms := ["settlement window", "settlement cycle", "settlement period",
       "trade settlement window"]
     regexPatterns :=
       [seq [before ["trade"], text "settlement", blanks1,
          oneOf [text "window", text "cycle", text "period"]]] },
   { identifier := "crar_pct"
     allowedUnits := ["%", "pct", "percent", "per cent"]
     maxValue := some hundred
     synonyms := ["crar", "capital adequacy ratio", "capital to risk weighted assets ratio"] },
   { identifier := "single_borrower_exposure_pct"
     allowedUnits := ["%", "pct", "percent", "per cent"]
     maxValue := some hundred
     synonyms := ["single borrower exposure", "single borrower limit",
       "single borrower exposure limit"] },
   { identifier := "solvency_ratio"
     allowedUnits := ["ratio", "times", "%", "pct"]
     synonyms := ["solvency ratio", "solvency margin", "minimum solvency ratio"] },
   { identifier := "equity_exposure_pct"
     allowedUnits := ["%", "pct", "percent", "per cent"]
     maxValue := some hundred
     synonyms := ["equity exposure", "maximum equity exposure", "equity exposure limit"] }]

/-! ## Resolving -/

inductive FactValidationStatus where
  | valid
  | missingMapping
  | wrongUnit
  | wrongThreshold
  deriving DecidableEq, Repr

structure FactResolutionResult where
  status : FactValidationStatus
  canonicalIdentifier : Option String := none
  errorMessage : Option String := none
  deriving DecidableEq

def FactResolutionResult.isValid (r : FactResolutionResult) : Bool :=
  r.status = .valid ∧ r.canonicalIdentifier ≠ none

def getCanonicalFact (identifier : String) : Option CanonicalFact :=
  canonicalFacts.find? fun f => f.identifier = identifier

/-- A synonym of the fact, or a text one of its patterns matches. -/
def CanonicalFact.recognizes (f : CanonicalFact) (cleanMetric : String) : Bool :=
  cleanMetric ∈ f.synonyms || f.regexPatterns.any fun r => r.rmatch cleanMetric.toList

/-- The fact a metric's name stands for: by identifier, else by synonym or pattern. -/
def matchFact (metric : String) : Option CanonicalFact :=
  let cleanMetric := normalizeMetricText metric
  (getCanonicalFact (strip metric)).or ((getCanonicalFact cleanMetric).or
    (canonicalFacts.find? fun f => f.recognizes cleanMetric))

def CanonicalFact.wrongUnit (f : CanonicalFact) (unit : Option String) : Bool :=
  match unit with
  | some u =>
    strip u ≠ "" ∧ normalizeUnit u ∉ f.allowedUnits ∧ lower (strip u) ∉ f.allowedUnits
  | none => false

/-- The message for a value outside the fact's bounds. -/
def CanonicalFact.outOfRange (f : CanonicalFact) (what : String) (value : Option Decimal) :
    Option String := do
  let v ← value
  let text (relation : String) (bound : Decimal) :=
    what ++ " " ++ v.repr ++ " " ++ relation ++ " permissible value " ++ bound.repr ++
      " for '" ++ f.identifier ++ "'."
  let below := f.minValue.filter fun b => v.toRat < b.toRat
  let above := f.maxValue.filter fun b => b.toRat < v.toRat
  (below.map (text "is below minimum")).or (above.map (text "exceeds maximum"))

def resolveCanonicalFact (metric : String) (unit : Option String)
    (value valueUpper : Option Decimal) : FactResolutionResult :=
  if strip metric = "" then
    { status := .missingMapping, errorMessage := some "Metric name is empty or missing." }
  else
    match matchFact metric with
    | none =>
      { status := .missingMapping
        errorMessage := some ("Metric '" ++ metric ++ "' does not map to any canonical regulatory " ++
          "fact. Arbitrary field name invention is prohibited.") }
    | some f =>
      if f.wrongUnit unit then
        { status := .wrongUnit
          canonicalIdentifier := some f.identifier
          errorMessage := some ("Unit '" ++ unit.getD "None" ++ "' is invalid for canonical fact '" ++
            f.identifier ++ "'. Allowed units: " ++
            reprList (f.allowedUnits.insertionSort (· ≤ ·)) ++ ".") }
      else
        match (f.outOfRange "Threshold value" value).or
            (f.outOfRange "Upper threshold value" valueUpper) with
        | some message =>
          { status := .wrongThreshold
            canonicalIdentifier := some f.identifier
            errorMessage := some message }
        | none => { status := .valid, canonicalIdentifier := some f.identifier }

/-! ## The digest of a rule's thresholds -/

/-- A record of the digest. -/
structure DigestRecord where
  metric : String
  canonicalFact : String
  operator : String
  value : Decimal
  valueUpper : Option Decimal
  unit : String

def NumericalThreshold.digestRecord (t : NumericalThreshold) : DigestRecord where
  metric := t.metric
  canonicalFact := orText t.canonicalFact ""
  operator := t.operator.str
  value := t.value
  valueUpper := t.valueUpper
  unit := if t.unit = "" then "" else normalizeUnit t.unit

def DigestRecord.json (r : DigestRecord) : Json :=
  .obj [("metric", .str r.metric), ("canonical_fact", .str r.canonicalFact),
    ("operator", .str r.operator), ("value", .float r.value),
    ("value_upper", (r.valueUpper.map Json.float).getD .null), ("unit", .str r.unit)]

/-- The sort key of a record. -/
def DigestRecord.key (r : DigestRecord) : List String :=
  [r.canonicalFact, r.metric, r.operator, r.value.repr]

def computeCanonicalFactsDigest (thresholds : List NumericalThreshold) : String :=
  let records := (thresholds.map (·.digestRecord)).insertionSort fun r s => r.key ≤ s.key
  hexdigest (Json.arr (records.map (·.json))).dumps

/-!
## The items of the digest

`compute_canonical_facts_digest` reads a threshold by its attributes, or the dictionary it was dumped to by
its keys. The digest is a function of the text of the records; `computeCanonicalFactsDigest` is that of
models. A value that is no float, which `float` would convert or refuse, is left out.
-/

inductive ThresholdItem where
  | model (t : NumericalThreshold)
  | dict (d : Json)

/-- `str` of a JSON value. -/
def strOf : Json → String
  | .str s => s
  | j => j.pyRepr

/-- `item.get(key)` where it is truthy. -/
def truthyGet? (d : Json) (key : String) : Option Json := (d.get? key).filter Json.truthy

/-- A value that may be missing. -/
def floatOf? : Option Json → Option (Option Decimal)
  | none | some .null => some none
  | some (.float x) => some (some x)
  | _ => none

/-- The record of a dictionary. -/
def dictRecord (d : Json) : Option DigestRecord := do
  let value ← (floatOf? (d.get? "value")).join
  let valueUpper ← floatOf? (d.get? "value_upper")
  pure
    { metric := ((d.get? "metric").map strOf).getD ""
      canonicalFact :=
        (((truthyGet? d "canonical_fact").or (truthyGet? d "canonical_identifier")).map strOf).getD ""
      operator := ((d.get? "operator").map strOf).getD ""
      value := value
      valueUpper := valueUpper
      unit := ((truthyGet? d "unit").map fun u => normalizeUnit (strOf u)).getD "" }

def ThresholdItem.record : ThresholdItem → Option DigestRecord
  | .model t => some t.digestRecord
  | .dict d => dictRecord d

/-- The text that is hashed. -/
def canonicalFactsPayload (items : List ThresholdItem) : Option String := do
  let records ← items.mapM (·.record)
  pure (Json.arr ((records.insertionSort fun r s => r.key ≤ s.key).map (·.json))).dumps

def canonicalFactsDigest (sha256 : String → String) (items : List ThresholdItem) : Option String :=
  (canonicalFactsPayload items).map sha256

/-- `t.model_dump(mode="json")`, less the verbatim evidence. -/
def NumericalThreshold.modelDump (t : NumericalThreshold) : Json :=
  .obj [("metric", .str t.metric), ("canonical_fact", (t.canonicalFact.map Json.str).getD .null),
    ("operator", .str t.operator.value), ("value", .float t.value),
    ("value_upper", (t.valueUpper.map Json.float).getD .null), ("unit", .str t.unit),
    ("applies_to", (t.appliesTo.map Json.str).getD .null)]

end RegEngine.Compiler

/-!
## Names of packages and fields

`app/compiler/naming.py` and `resolve_domain` of `app/regulatory/taxonomy.py`: slugs, the package of
a rule and the `input.facts` field of a threshold.
-/

namespace RegEngine.Compiler

open Lib Lib.Python

/-- What the compilers raise. -/
inductive CompileError where
  | valueError (message : String)
  | undefinedFactError (message : String)
  | assertionError
  deriving DecidableEq

def slugify (text : String) : String :=
  let slug := subRuns (fun c => !isAlnum c) ['_'] false (lower (strip text)).toList
  orText (some (String.ofList (stripChars (· = '_') slug))) "unnamed"

/-- The slug of a number, or the default for a missing or empty one. -/
def slugOr (number : Option String) (default : String) : String :=
  if truthy number then slugify (number.getD "") else default

def clauseSlug (clauseNumber : Option String) : String := slugOr clauseNumber "unscoped"

def circularSlug (circularNumber : Option String) : String :=
  slugOr circularNumber "uncategorized_circular"

/-- `metric_field_name`, with unmapped metrics refused. -/
def metricFieldName (metric unit : String) : Except CompileError String :=
  let res := resolveCanonicalFact metric (some unit) none none
  match res.isValid, res.canonicalIdentifier with
  | true, some identifier => .ok identifier
  | _, _ => .error (.undefinedFactError ("Metric '" ++ metric ++ "' (unit: '" ++ unit ++
      "') cannot be mapped to a canonical regulatory fact: " ++ res.errorMessage.getD "None"))

/-- The domains of a regulator and its default one. -/
def Regulator.domains : Regulator → List String
  | sebi => ["broking", "amc", "depository", "portfolio_management", "research"]
  | rbi => ["banking", "nbfc", "lending", "payments", "cooperative_banking"]
  | irdai => ["underwriting", "distribution", "claims", "solvency", "reinsurance"]
  | pfrda => ["pension"]

def Regulator.defaultDomain : Regulator → String
  | sebi => "broking"
  | rbi => "banking"
  | irdai => "underwriting"
  | pfrda => "pension"

def entityDomainHints : List (String × String) :=
  [("Stockbroker", "broking"), ("DepositoryParticipant", "depository"),
   ("AssetManagementCompany", "amc"), ("MutualFund", "amc"),
   ("PortfolioManager", "portfolio_management"), ("ResearchAnalyst", "research"),
   ("ScheduledCommercialBank", "banking"), ("CooperativeBank", "cooperative_banking"),
   ("SmallFinanceBank", "banking"), ("PaymentBank", "payments"), ("NBFC", "nbfc"),
   ("PaymentSystemOperator", "payments"), ("PrimaryDealer", "banking"),
   ("LifeInsurer", "underwriting"), ("GeneralInsurer", "underwriting"),
   ("HealthInsurer", "underwriting"), ("Reinsurer", "reinsurance"),
   ("InsuranceIntermediary", "distribution"), ("InsuranceBroker", "distribution"),
   ("TPA", "claims"), ("PensionFundManager", "pension"), ("PointOfPresence", "pension"),
   ("CentralRecordkeepingAgency", "pension"), ("NPSTrust", "pension"), ("Custodian", "pension")]

def resolveDomain (regulator : Regulator) (entityType : Option String) : String :=
  match entityDomainHints.lookup (entityType.getD "") with
  | some domain => if domain ∈ regulator.domains then domain else regulator.defaultDomain
  | none => regulator.defaultDomain

def regoPackageName (regulator : Regulator) (domain : String)
    (circularNumber clauseNumber : Option String) : String :=
  regulator.value ++ "." ++ domain ++ ".circulars." ++ circularSlug circularNumber ++ ".clause_" ++
    clauseSlug clauseNumber

end RegEngine.Compiler
