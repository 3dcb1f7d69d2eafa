import RegEngine.Lib.Json

/-!
# Extracted rules and compiled modules

The parts of `app/agents/schemas.py` and `app/compiler/models.py` that the compilers read and write.
A threshold carries what its validator checks.
-/

namespace RegEngine.Compiler

open Lib

/-- `Regulator`. -/
inductive Regulator where
  | sebi
  | rbi
  | irdai
  | pfrda
  deriving DecidableEq, Repr

def Regulator.value : Regulator → String
  | sebi => "sebi"
  | rbi => "rbi"
  | irdai => "irdai"
  | pfrda => "pfrda"

inductive ObligationType where
  | mandatory
  | prohibited
  | conditional
  | recommended
  deriving DecidableEq, Repr

def ObligationType.value : ObligationType → String
  | mandatory => "mandatory"
  | prohibited => "prohibited"
  | conditional => "conditional"
  | recommended => "recommended"

inductive ComparisonOperator where
  | gte
  | gt
  | lte
  | lt
  | eq
  | range
  deriving DecidableEq, Repr

def ComparisonOperator.value : ComparisonOperator → String
  | gte => ">="
  | gt => ">"
  | lte => "<="
  | lt => "<"
  | eq => "=="
  | range => "range"

/-- `str` of an operator. -/
def ComparisonOperator.str : ComparisonOperator → String
  | gte => "ComparisonOperator.GTE"
  | gt => "ComparisonOperator.GT"
  | lte => "ComparisonOperator.LTE"
  | lt => "ComparisonOperator.LT"
  | eq => "ComparisonOperator.EQ"
  | range => "ComparisonOperator.RANGE"

/-- A threshold without an upper bound needs no range. -/
theorem no_valueUpper {o : ComparisonOperator} : (none : Option Decimal) ≠ none → o = .range :=
  fun h => absurd rfl h

structure TargetEntity where
  rawText : String
  normalizedEntity : Option String := none

structure NumericalThreshold where
  metric : String
  canonicalFact : Option String := none
  operator : ComparisonOperator
  value : Decimal
  valueUpper : Option Decimal := none
  unit : String
  appliesTo : Option String := none
  upperRequiresRange : valueUpper ≠ none → operator = .range := by decide

structure ExtractedComplianceRule where
  ruleId : String
  sourceSha256 : String
  sourceDocumentSha256 : Option String := none
  extractedTextSha256 : Option String := none
  circularNumber : Option String := none
  clauseNumber : Option String := none
  regulator : Regulator := .sebi
  regulatoryDomain : Option String := none
  targetEntities : List TargetEntity := []
  deterministicLogic : List NumericalThreshold := []
  obligationType : ObligationType
  canonicalFactsDigest : Option String := none

/-- A Rego module compiled from one rule. -/
structure CompiledRego where
  ruleId : String
  package : String
  regoCode : String
  thresholdsCompiled : Nat
  ruleVersion : Int := 1
  policySha256 : Option String := none
  canonicalFactsDigest : Option String := none
  deriving DecidableEq

end RegEngine.Compiler
