import RegEngine.VerificationPortal.CustodyChain

/-!
# What is in the audit binder

* `file_rego`, `file_pdf`, `collectClauseHashes_eq`: the files and the clause hashes of a binder, read off the rows.
* `checkFiles_pass_iff`: the files of a package pass exactly when it holds contents with the hashes of the manifest.
* `evidence_kept_iff`: the portal passes every file of a binder; and a policy, a clause hash or a source file is missing
  exactly when another one goes by the same name.
-/

namespace RegEngine.VerificationPortal

open Lib Lib.Python Lib.Query

variable {source : BinderSource}

/-! ## Paths -/

/-- The first letter of a path. -/
def initial (path : String) : Option Char := path.toList.head?

theorem initial_append {s : String} {c : Char} (h : initial s = some c) (t : String) : initial (s ++ t) = some c := by
  rw [initial, String.toList_append, List.head?_append, ← initial, h]
  rfl

theorem initial_regoPath (ruleId : String) : initial (regoPath ruleId) = some 'r' :=
  initial_append (initial_append (by decide) _) _

theorem initial_pdfPath (number : String) : initial (pdfPath number) = some 's' :=
  initial_append (initial_append (by decide) _) _

theorem ne_of_initial {p q : String} {c d : Char} (hp : initial p = some c) (hq : initial q = some d) (h : c ≠ d) :
    p ≠ q := by
  rintro rfl
  exact h (Option.some.inj (hp.symm.trans hq))

/-- The last letter of a path. -/
def final (path : String) : Option Char := path.toList.getLast?

theorem final_append (s : String) {t : String} {c : Char} (h : final t = some c) : final (s ++ t) = some c := by
  rw [final, String.toList_append, List.getLast?_append, ← final, h]
  rfl

theorem final_pdfPath (number : String) : final (pdfPath number) = some 'f' := final_append _ (by decide)

theorem pdfPath_ne (number : String) : pdfPath number ≠ "source_circulars/clause_hashes.json" := by
  intro h
  have hfinal := final_pdfPath number
  rw [h] at hfinal
  exact absurd hfinal (by decide)

/-! ## The files -/

/-- The policies among the items of `files`. -/
def regoItems (source : BinderSource) : List (String × List UInt8) :=
  (collectRegoFiles source.rules source.ruleIds).map fun r => (regoPath r.1, r.2.toByteArray.data.toList)

/-- The source files among them. -/
def pdfItems (source : BinderSource) : List (String × List UInt8) :=
  source.circulars.filterMap fun c =>
    (findSourcePdf source.archive c).map fun content => (pdfPath c.circularNumber, content)

/-- The three that are always there. -/
def fixedItems (source : BinderSource) : List (String × List UInt8) :=
  [("ledger_proof.json", source.ledgerProof), ("audit_binder.xlsx", source.workbook),
    ("audit_binder.json", source.binderJson)]

theorem items_eq : source.items = regoItems source ++
    ("source_circulars/clause_hashes.json", source.clauseHashesJson (collectClauseHashes source.clauses)) ::
      pdfItems source ++ fixedItems source := rfl

theorem initial_regoItems {p : String × List UInt8} (hp : p ∈ regoItems source) : initial p.1 = some 'r' := by
  obtain ⟨r, -, rfl⟩ := List.mem_map.1 hp
  exact initial_regoPath r.1

theorem initial_pdfItems {p : String × List UInt8} (hp : p ∈ pdfItems source) : initial p.1 = some 's' := by
  obtain ⟨c, -, hc⟩ := List.mem_filterMap.1 hp
  obtain ⟨content, -, rfl⟩ := Option.map_eq_some_iff.1 hc
  exact initial_pdfPath c.circularNumber

theorem initial_fixedItems {p : String × List UInt8} (hp : p ∈ fixedItems source) :
    initial p.1 = some 'l' ∨ initial p.1 = some 'a' := by
  have hproof : initial "ledger_proof.json" = some 'l' := by decide
  have hbook : initial "audit_binder.xlsx" = some 'a' := by decide
  have hjson : initial "audit_binder.json" = some 'a' := by decide
  simp only [fixedItems, List.mem_cons, List.not_mem_nil, or_false] at hp
  rcases hp with rfl | rfl | rfl
  · exact .inl hproof
  · exact .inr hbook
  · exact .inr hjson

theorem initial_hashes : initial "source_circulars/clause_hashes.json" = some 's' := by decide

/-- No item is one of the three files behind the manifest. -/
theorem initial_items {p : String × List UInt8} (hp : p ∈ source.items) :
    initial p.1 = some 'r' ∨ initial p.1 = some 's' ∨ initial p.1 = some 'l' ∨ initial p.1 = some 'a' := by
  rw [items_eq, List.mem_append, List.mem_append, List.mem_cons] at hp
  rcases hp with (hp | rfl | hp) | hp
  · exact .inl (initial_regoItems hp)
  · exact .inr (.inl initial_hashes)
  · exact .inr (.inl (initial_pdfItems hp))
  · exact .inr (.inr (initial_fixedItems hp))

theorem file_fixed_none {path : String} {c : Char} (h : initial path = some c) (hl : c ≠ 'l') (ha : c ≠ 'a') :
    dict (fixedItems source) path = none := by
  refine dict_eq_none fun p hp => ?_
  rcases initial_fixedItems hp with hi | hi
  · exact ne_of_initial hi h (Ne.symm hl)
  · exact ne_of_initial hi h (Ne.symm ha)

/-- The file of a rule is among the policies. -/
theorem file_rego (ruleId : String) :
    source.evidence.file (regoPath ruleId) = dict (regoItems source) (regoPath ruleId) := by
  have hinitial := initial_regoPath ruleId
  have hcirculars : dict (("source_circulars/clause_hashes.json",
      source.clauseHashesJson (collectClauseHashes source.clauses)) :: pdfItems source) (regoPath ruleId) = none := by
    refine dict_eq_none fun p hp => ?_
    rcases List.mem_cons.1 hp with rfl | hp
    · exact ne_of_initial initial_hashes hinitial (by decide)
    · exact ne_of_initial (initial_pdfItems hp) hinitial (by decide)
  rw [Package.file, BinderSource.evidence, lookup_ofItems, items_eq, dict_append, dict_append,
    file_fixed_none hinitial (by decide) (by decide), hcirculars]
  rfl

/-- The file of a circular is among the source files. -/
theorem file_pdf (number : String) : source.evidence.file (pdfPath number) = dict (pdfItems source) (pdfPath number) := by
  have hinitial := initial_pdfPath number
  have hrego : dict (regoItems source) (pdfPath number) = none :=
    dict_eq_none fun p hp => ne_of_initial (initial_regoItems hp) hinitial (by decide)
  have hhashes : dict [("source_circulars/clause_hashes.json",
      source.clauseHashesJson (collectClauseHashes source.clauses))] (pdfPath number) = none := by
    refine dict_eq_none fun p hp => ?_
    rw [List.mem_singleton.1 hp]
    exact (pdfPath_ne number).symm
  rw [Package.file, BinderSource.evidence, lookup_ofItems, items_eq, dict_append, dict_append,
    file_fixed_none hinitial (by decide) (by decide), ← List.singleton_append, dict_append, hrego, hhashes]
  cases dict (pdfItems source) (pdfPath number) <;> rfl

/-! ## What is kept -/

/-- Every stored policy of the rules of the period has its file. -/
def RegoKept (source : BinderSource) (zip : Package) : Prop :=
  ∀ rule ∈ source.rules, rule.ruleId ∈ source.ruleIds → ∀ rego, rule.regoPolicy = some rego →
    zip.file (regoPath rule.ruleId) = some rego.toByteArray.data.toList

/-- Every clause has its digest under its number. -/
def HashesKept (source : BinderSource) : Prop :=
  ∀ row ∈ source.clauses, ((lookup (collectClauseHashes source.clauses) row.circularNumber).bind fun clauses =>
    lookup clauses (orText row.clauseNumber "unscoped")) = some row.sha256

/-- Every archived source file has its file. -/
def PdfsKept (source : BinderSource) (zip : Package) : Prop :=
  ∀ c ∈ source.circulars, ∀ content, findSourcePdf source.archive c = some content →
    zip.file (pdfPath c.circularNumber) = some content

/-- Two rules of one path have one policy. -/
def RegoDistinct (source : BinderSource) : Prop :=
  ∀ r ∈ source.rules, ∀ r' ∈ source.rules, r.ruleId ∈ source.ruleIds → r'.ruleId ∈ source.ruleIds →
    regoPath r.ruleId = regoPath r'.ruleId → ∀ rego rego', r.regoPolicy = some rego → r'.regoPolicy = some rego' →
      rego = rego'

theorem bytes_inj {s t : String} (h : s.toByteArray.data.toList = t.toByteArray.data.toList) : s = t :=
  String.toByteArray_inj.1 (ByteArray.ext (Array.toList_inj.1 h))

/-- The rows behind the policies. -/
def regoRows (source : BinderSource) : List (String × String) :=
  (source.rules.filter fun r => r.ruleId ∈ source.ruleIds).filterMap fun r =>
    r.regoPolicy.map fun rego => (r.ruleId, rego)

theorem mem_regoRows {ruleId rego : String} : (ruleId, rego) ∈ regoRows source ↔
    ∃ rule ∈ source.rules, rule.ruleId ∈ source.ruleIds ∧ rule.ruleId = ruleId ∧ rule.regoPolicy = some rego := by
  simp only [regoRows, List.mem_filterMap, List.mem_filter, decide_eq_true_eq, Option.map_eq_some_iff, Prod.mk.injEq]
  constructor
  · rintro ⟨rule, ⟨hrule, hid⟩, _, hrego, rfl, rfl⟩
    exact ⟨rule, hrule, hid, rfl, hrego⟩
  · rintro ⟨rule, hrule, hid, rfl, hrego⟩
    exact ⟨rule, ⟨hrule, hid⟩, rego, hrego, rfl, rfl⟩

theorem regoKept_iff : RegoKept source source.evidence ↔ RegoDistinct source := by
  constructor
  · intro h r hr r' hr' hid hid' hpath rego rego' hrego hrego'
    have hfile := h r hr hid rego hrego
    rw [hpath, h r' hr' hid' rego' hrego'] at hfile
    exact bytes_inj (Option.some.inj hfile).symm
  · intro h rule hrule hid rego hrego
    have hsame : ∀ p ∈ regoRows source, regoPath p.1 = regoPath rule.ruleId → p.2 = rego := by
      intro p hp hpath
      obtain ⟨r, hr, hrid, hr1, hr2⟩ := mem_regoRows.1 hp
      exact h r hr rule hrule hrid hid (hr1 ▸ hpath) p.2 rego hr2 hrego
    have hrow : (rule.ruleId, rego) ∈ regoRows source := mem_regoRows.2 ⟨rule, hrule, hid, rfl, hrego⟩
    have hitem : (rule.ruleId, rego) ∈ collectRegoFiles source.rules source.ruleIds := by
      refine mem_of_lookup_eq_some (Eq.trans (lookup_ofItems (regoRows source) rule.ruleId) ?_)
      exact dict_eq_some hrow fun p hp hp1 => hsame p hp (congrArg regoPath hp1)
    rw [file_rego]
    refine dict_eq_some (List.mem_map.2 ⟨_, hitem, rfl⟩) fun p hp hpath => ?_
    obtain ⟨q, hq, rfl⟩ := List.mem_map.1 hp
    have hval : lookup (collectRegoFiles source.rules source.ruleIds) q.1 = some q.2 :=
      lookup_of_mem (nodup_ofItems _) hq
    have hmem : (q.1, q.2) ∈ regoRows source :=
      mem_of_dict_eq_some (Eq.trans (lookup_ofItems (regoRows source) q.1).symm hval)
    rw [hsame _ hmem hpath]

/-- Two circulars of one path have one source file. -/
def PdfsDistinct (source : BinderSource) : Prop :=
  ∀ c ∈ source.circulars, ∀ c' ∈ source.circulars, pdfPath c.circularNumber = pdfPath c'.circularNumber →
    ∀ content content', findSourcePdf source.archive c = some content →
      findSourcePdf source.archive c' = some content' → content = content'

theorem mem_pdfItems {path : String} {content : List UInt8} : (path, content) ∈ pdfItems source ↔
    ∃ c ∈ source.circulars, findSourcePdf source.archive c = some content ∧ pdfPath c.circularNumber = path := by
  simp only [pdfItems, List.mem_filterMap, Option.map_eq_some_iff, Prod.mk.injEq]
  constructor
  · rintro ⟨c, hc, _, hcontent, rfl, rfl⟩
    exact ⟨c, hc, hcontent, rfl⟩
  · rintro ⟨c, hc, hcontent, rfl⟩
    exact ⟨c, hc, content, hcontent, rfl, rfl⟩

theorem pdfsKept_iff : PdfsKept source source.evidence ↔ PdfsDistinct source := by
  constructor
  · intro h c hc c' hc' hpath content content' hcontent hcontent'
    have hfile := h c hc content hcontent
    rw [hpath, h c' hc' content' hcontent'] at hfile
    exact (Option.some.inj hfile).symm
  · intro h c hc content hcontent
    rw [file_pdf]
    refine dict_eq_some (mem_pdfItems.2 ⟨c, hc, hcontent, rfl⟩) fun p hp hpath => ?_
    obtain ⟨c', hc', hcontent', hpath'⟩ := mem_pdfItems.1 hp
    exact h c' hc' c hc (hpath'.trans hpath) p.2 content hcontent' hcontent

/-- The label of a clause. -/
def label (row : ClauseRow) : String × String := (row.circularNumber, orText row.clauseNumber "unscoped")

/-- Two clauses of one label have one digest. -/
def HashesDistinct (source : BinderSource) : Prop :=
  ∀ row ∈ source.clauses, ∀ row' ∈ source.clauses, label row = label row' → row.sha256 = row'.sha256

/-- The digest under a label is that of the last clause with it. -/
theorem collectClauseHashes_eq (rows : List ClauseRow) (number clause : String) :
    ((lookup (collectClauseHashes rows) number).bind fun clauses => lookup clauses clause) =
      dict (rows.map fun row => (label row, row.sha256)) (number, clause) := by
  induction rows using List.reverseRecOn with
  | nil => rfl
  | append_singleton rows row ih =>
    rw [List.map_append, List.map_singleton, dict_concat, ← ih, collectClauseHashes, List.foldl_append,
      List.foldl_cons, List.foldl_nil, ← collectClauseHashes, lookup_setItem]
    by_cases hnumber : row.circularNumber = number
    · rw [if_pos hnumber, Option.bind_some, lookup_setItem, hnumber]
      by_cases hclause : orText row.clauseNumber "unscoped" = clause
      · rw [if_pos hclause, if_pos (by rw [label, hnumber, hclause])]
      · have hlabel : label row ≠ (number, clause) := fun h => hclause (Prod.mk.inj h).2
        rw [if_neg hclause, if_neg hlabel]
        cases lookup (collectClauseHashes rows) number <;> rfl
    · have hlabel : label row ≠ (number, clause) := fun h => hnumber (Prod.mk.inj h).1
      rw [if_neg hnumber, if_neg hlabel]

theorem hashesKept_iff : HashesKept source ↔ HashesDistinct source := by
  have hkeeps := @dict_keeps_iff _ _ _ (source.clauses.map fun row => (label row, row.sha256))
  simp only [List.mem_map, forall_exists_index, and_imp, forall_apply_eq_imp_iff₂] at hkeeps
  rw [HashesKept, HashesDistinct, ← hkeeps]
  refine forall₂_congr fun row _ => ?_
  rw [collectClauseHashes_eq]
  rfl

/-! ## The portal -/

theorem file_setItem (zip : Package) (path path' : String) (content : List UInt8) :
    Package.file (setItem zip path content) path' = if path = path' then some content else zip.file path' :=
  lookup_setItem zip path content path'

/-- The files behind the manifest are not those of the evidence. -/
theorem file_buildAuditBinder (source : BinderSource) (hex : List UInt8 → String)
    (manifestJson : List ManifestFile → List UInt8) (sign : Option (List UInt8 → List UInt8)) (summaryPdf : List UInt8)
    {path : String} {c : Char} (h : initial path = some c) (hm : c ≠ 'm') (hd : c ≠ 'd') (he : c ≠ 'e') :
    (buildAuditBinder source hex manifestJson sign summaryPdf).file path = source.evidence.file path := by
  have hmanifest : initial "manifest.json" = some 'm' := by decide
  have hsignature : initial "digital_signature.json" = some 'd' := by decide
  have hsummary : initial "executive_summary.pdf" = some 'e' := by decide
  cases sign with
  | none =>
    simp only [buildAuditBinder, file_setItem, ne_of_initial hsummary h he.symm, ne_of_initial hmanifest h hm.symm,
      if_false]
  | some signManifest =>
    simp only [buildAuditBinder, file_setItem, ne_of_initial hsummary h he.symm, ne_of_initial hsignature h hd.symm,
      ne_of_initial hmanifest h hm.symm, if_false]

/-- The files pass exactly when each path of the manifest holds a content with its hash. -/
theorem checkFiles_pass_iff (hex : List UInt8 → String) (zip : Package) (files : Package) :
    (∀ r ∈ checkFiles hex zip (manifestFiles hex files), r.status = .pass) ↔
      ∀ f ∈ files, ∃ content, zip.file f.1 = some content ∧ hex content = hex f.2 := by
  simp only [checkFiles, manifestFiles, List.mem_map, forall_exists_index, and_imp, forall_apply_eq_imp_iff₂,
    List.mem_insertionSort]
  refine forall₂_congr fun f _ => ?_
  cases zip.file f.1 with
  | none => simp
  | some content => simp

theorem mem_evidence {p : String × List UInt8} (hp : p ∈ source.evidence) : p ∈ source.items := by
  have hval : lookup source.evidence p.1 = some p.2 := lookup_of_mem (nodup_ofItems _) hp
  exact mem_of_dict_eq_some (Eq.trans (lookup_ofItems source.items p.1).symm hval)

/-- **What an audit binder keeps.** The portal passes every file of the manifest of any binder; a policy, a clause
digest or a source file is missing from it exactly when another one goes by the same name. -/
theorem evidence_kept_iff (source : BinderSource) (hex : List UInt8 → String)
    (manifestJson : List ManifestFile → List UInt8) (sign : Option (List UInt8 → List UInt8))
    (summaryPdf : List UInt8) :
    let zip := buildAuditBinder source hex manifestJson sign summaryPdf
    (∀ r ∈ checkFiles hex zip (manifestFiles hex source.evidence), r.status = .pass) ∧
      (∀ path content, source.evidence.file path = some content →
        zip.file path = some content ∧
          { path := path, sha256 := hex content } ∈ manifestFiles hex source.evidence) ∧
      (RegoKept source zip ↔ RegoDistinct source) ∧ (HashesKept source ↔ HashesDistinct source) ∧
      (PdfsKept source zip ↔ PdfsDistinct source) := by
  have hfile : ∀ f ∈ source.evidence,
      (buildAuditBinder source hex manifestJson sign summaryPdf).file f.1 = source.evidence.file f.1 := by
    intro f hf
    rcases initial_items (mem_evidence hf) with h | h | h | h <;>
      exact file_buildAuditBinder source hex manifestJson sign summaryPdf h (by decide) (by decide) (by decide)
  refine ⟨(checkFiles_pass_iff hex _ _).2 fun f hf => ?_, fun path content h => ?_, ?_, hashesKept_iff, ?_⟩
  · exact ⟨f.2, (hfile f hf).trans (lookup_of_mem (nodup_ofItems _) hf), rfl⟩
  · have hmem : (path, content) ∈ source.evidence := mem_of_lookup_eq_some h
    refine ⟨(hfile _ hmem).trans h, ?_⟩
    simp only [manifestFiles, List.mem_map, List.mem_insertionSort]
    exact ⟨_, hmem, rfl⟩
  · rw [← regoKept_iff]
    refine forall₂_congr fun rule _ => forall₃_congr fun _ rego _ => ?_
    rw [file_buildAuditBinder source hex manifestJson sign summaryPdf (initial_regoPath rule.ruleId) (by decide)
      (by decide) (by decide)]
  · rw [← pdfsKept_iff]
    refine forall₂_congr fun c _ => forall₂_congr fun content _ => ?_
    rw [file_buildAuditBinder source hex manifestJson sign summaryPdf (initial_pdfPath c.circularNumber) (by decide)
      (by decide) (by decide)]

end RegEngine.VerificationPortal
