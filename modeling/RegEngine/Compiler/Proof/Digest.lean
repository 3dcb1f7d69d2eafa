import RegEngine.Compiler.Facts
import RegEngine.Lib.JsonText
import RegEngine.Lib.StableSort

/-!
# What the digest depends on

The payload is a text of the sorted records, which determines them. So the order of the thresholds is of no
account when records of one sort key are equal. The dumps never give the digest of their models: `str` of an
operator is the name of the member, and that of the dumped text its value.
-/

namespace RegEngine.Compiler

open Lib Lib.Python Lib.StableSort

/-! ## Payloads -/

theorem mapM_record_model (ts : List NumericalThreshold) :
    (ts.map ThresholdItem.model).mapM (·.record) = some (ts.map (·.digestRecord)) := by
  rw [List.mapM_map]
  exact List.mapM_pure

/-- The digest of models. -/
theorem computeCanonicalFactsDigest_eq (ts : List NumericalThreshold) :
    canonicalFactsDigest Sha256.hexdigest (ts.map .model) = some (computeCanonicalFactsDigest ts) := by
  unfold canonicalFactsDigest canonicalFactsPayload computeCanonicalFactsDigest
  rw [mapM_record_model]
  rfl

/-- The fields of a record. -/
def DigestRecord.fields (r : DigestRecord) : List (String × Json) :=
  [("metric", .str r.metric), ("canonical_fact", .str r.canonicalFact), ("operator", .str r.operator),
    ("value", .float r.value), ("value_upper", (r.valueUpper.map Json.float).getD .null),
    ("unit", .str r.unit)]

theorem DigestRecord.nodup_fields (r : DigestRecord) : (r.fields.map (·.1)).Nodup :=
  have hkeys : ["metric", "canonical_fact", "operator", "value", "value_upper", "unit"].Nodup := by decide
  hkeys

theorem DigestRecord.json_inj {r s : DigestRecord} (h : r.json.sortKeys = s.json.sortKeys) :
    r = s := by
  obtain ⟨metric, fact, operator, value, upper, unit⟩ := r
  obtain ⟨metric', fact', operator', value', upper', unit'⟩ := s
  have hfield := Json.field_of_sortKeys_eq (DigestRecord.nodup_fields _) (DigestRecord.nodup_fields _) h
  have h1 := hfield "metric"
  have h2 := hfield "canonical_fact"
  have h3 := hfield "operator"
  have h4 := hfield "value"
  have h5 := hfield "value_upper"
  have h6 := hfield "unit"
  simp only [DigestRecord.fields, Json.get?, List.find?, beq_self_eq_true, String.reduceBEq,
    Option.map_some, Option.some.injEq, Json.sortKeys, Json.str.injEq, Json.float.injEq]
    at h1 h2 h3 h4 h5 h6
  have hupper : upper = upper' := by
    cases upper <;> cases upper' <;> simp_all [Json.sortKeys]
  rw [h1, h2, h3, h4, hupper, h6]

/-- The text of the records determines them. -/
theorem records_inj {rs ss : List DigestRecord}
    (h : (Json.arr (rs.map (·.json))).dumps = (Json.arr (ss.map (·.json))).dumps) : rs = ss := by
  have hsort := Json.dumps_eq_iff.1 h
  simp only [Json.sortKeys, Json.arr.injEq, Json.sortItems_eq_map, List.map_map] at hsort
  exact List.map_injective_iff.2 (fun _ _ => DigestRecord.json_inj) hsort

/-! ## Dumps -/

/-- The record of a dumped model: the operator is its value. -/
theorem dictRecord_modelDump (t : NumericalThreshold) :
    dictRecord t.modelDump = some { t.digestRecord with operator := t.operator.value } := by
  have hfloat : ∀ x : Option Decimal, floatOf? (some ((x.map Json.float).getD .null)) = some x := by
    intro x
    cases x <;> rfl
  have hfact : ((((some ((t.canonicalFact.map Json.str).getD .null)).filter Json.truthy).or none).map
      strOf).getD "" = orText t.canonicalFact "" := by
    cases t.canonicalFact with
    | none => rfl
    | some s => by_cases hs : s = "" <;> simp [Option.filter, Json.truthy, orText, strOf, hs]
  have hunit : (((some (Json.str t.unit)).filter Json.truthy).map fun u => normalizeUnit (strOf u)).getD
      "" = if t.unit = "" then "" else normalizeUnit t.unit := by
    by_cases hu : t.unit = "" <;> simp [Option.filter, Json.truthy, strOf, hu]
  simp only [dictRecord, truthyGet?, NumericalThreshold.modelDump, Json.get?, List.find?,
    beq_self_eq_true, String.reduceBEq, Option.map_some, Option.map_none, Option.filter_none, hfloat,
    hfact, hunit]
  rfl

theorem mapM_record_dict (ts : List NumericalThreshold) :
    (ts.map fun t => ThresholdItem.dict t.modelDump).mapM (·.record) =
      some (ts.map fun t => { t.digestRecord with operator := t.operator.value }) := by
  have hrecord : ((·.record) ∘ fun t : NumericalThreshold => ThresholdItem.dict t.modelDump) =
      fun t => some { t.digestRecord with operator := t.operator.value } :=
    funext dictRecord_modelDump
  rw [List.mapM_map, hrecord]
  exact List.mapM_pure

theorem ComparisonOperator.str_ne_value (a b : ComparisonOperator) : a.str ≠ b.value := by
  cases a <;> cases b <;> decide

/-! ## Orders of the thresholds and their dumps -/

/-- Every order of the thresholds has one digest. -/
def DigestOfAnyOrder (sha256 : String → String) (ts : List NumericalThreshold) : Prop :=
  ∀ us : List NumericalThreshold, us.Perm ts →
    canonicalFactsDigest sha256 (us.map .model) = canonicalFactsDigest sha256 (ts.map .model)

/-- The dumps of the thresholds, in any order, have the digest of the thresholds. -/
def DigestOfDumps (sha256 : String → String) (ts : List NumericalThreshold) : Prop :=
  ∀ ds : List Json, ds.Perm (ts.map (·.modelDump)) →
    canonicalFactsDigest sha256 (ds.map .dict) = canonicalFactsDigest sha256 (ts.map .model)

/-- Thresholds of one sort key have one record. -/
def KeysDetermine (ts : List NumericalThreshold) : Prop :=
  ∀ t ∈ ts, ∀ u ∈ ts, t.digestRecord.key = u.digestRecord.key → t.digestRecord = u.digestRecord

theorem canonicalFactsPayload_model (ts : List NumericalThreshold) :
    canonicalFactsPayload (ts.map .model) =
      some (Json.arr ((sortBy DigestRecord.key (ts.map (·.digestRecord))).map (·.json))).dumps := by
  unfold canonicalFactsPayload
  rw [mapM_record_model]
  rfl

/-- The order is of no account exactly when the sort key tells the thresholds apart. -/
theorem digestOfAnyOrder_iff (ts : List NumericalThreshold) :
    (∀ sha256, DigestOfAnyOrder sha256 ts) ↔ KeysDetermine ts := by
  have hsort : (∀ us : List NumericalThreshold, us.Perm ts →
      sortBy DigestRecord.key (us.map (·.digestRecord)) =
        sortBy DigestRecord.key (ts.map (·.digestRecord))) ↔ KeysDetermine ts :=
    sortBy_perm_iff (fun t : NumericalThreshold => t.digestRecord) ts
  rw [← hsort]
  constructor
  · intro h us hperm
    have hdigest := h id us hperm
    unfold canonicalFactsDigest at hdigest
    rw [canonicalFactsPayload_model, canonicalFactsPayload_model] at hdigest
    exact records_inj (Option.some.inj hdigest)
  · intro h sha256 us hperm
    unfold canonicalFactsDigest
    rw [canonicalFactsPayload_model, canonicalFactsPayload_model, h us hperm]

/-- A threshold and its dump have different records. -/
theorem not_digestOfDumps {ts : List NumericalThreshold} (hne : ts ≠ []) :
    ¬ DigestOfDumps id ts := by
  intro h
  have hdigest := h _ (List.Perm.refl _)
  unfold canonicalFactsDigest at hdigest
  rw [canonicalFactsPayload_model, canonicalFactsPayload, List.map_map,
    show (ThresholdItem.dict ∘ fun t : NumericalThreshold => t.modelDump) =
      fun t => ThresholdItem.dict t.modelDump from rfl, mapM_record_dict] at hdigest
  have hsorted := records_inj (Option.some.inj hdigest)
  obtain ⟨t, rest, rfl⟩ := List.exists_cons_of_ne_nil hne
  have hmem : t.digestRecord ∈
      sortBy DigestRecord.key ((t :: rest).map fun t => t.digestRecord) :=
    (List.mem_insertionSort _).2 (List.mem_map_of_mem List.mem_cons_self)
  rw [← hsorted, List.mem_insertionSort, List.mem_map] at hmem
  obtain ⟨u, -, heq⟩ := hmem
  exact ComparisonOperator.str_ne_value _ _ (congrArg DigestRecord.operator heq).symm

/-- Only the digest of no thresholds is that of their dumps; it is that of the thresholds in any order
exactly when the sort key tells them apart. -/
theorem digest_depends_on_order_and_dump (ts : List NumericalThreshold) :
    ((∀ sha256, DigestOfAnyOrder sha256 ts ∧ DigestOfDumps sha256 ts) ↔ ts = []) ∧
      ((∀ sha256, DigestOfAnyOrder sha256 ts) ↔ KeysDetermine ts) := by
  refine ⟨⟨fun h => ?_, fun h sha256 => ?_⟩, digestOfAnyOrder_iff ts⟩
  · by_contra hne
    exact not_digestOfDumps hne (h id).2
  · subst h
    refine ⟨fun us hus => ?_, fun ds hds => ?_⟩
    · rw [List.perm_nil.1 hus]
    · rw [List.perm_nil.1 (show ds.Perm [] from hds)]
      rfl

/-- A net worth of at least 5 crore. -/
def netWorthThreshold : NumericalThreshold :=
  { metric := "net worth"
    canonicalFact := some "net_worth_inr_crore"
    operator := .gte
    value := ⟨5, 0, Decimal.shortest_five⟩
    unit := "crore"
    upperRequiresRange := no_valueUpper }

/-- With SHA-256, the dump of one threshold has another digest. -/
theorem not_forall_digestOfDumps : ¬ ∀ ts, DigestOfAnyOrder Sha256.hexdigest ts ∧
    DigestOfDumps Sha256.hexdigest ts := by
  intro h
  have hdump := (h [netWorthThreshold]).2 _ (List.Perm.refl _)
  have hne : canonicalFactsDigest Sha256.hexdigest [.dict netWorthThreshold.modelDump] ≠
      canonicalFactsDigest Sha256.hexdigest [.model netWorthThreshold] := by decide +kernel
  exact hne hdump

end RegEngine.Compiler
