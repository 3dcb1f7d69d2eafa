import Mathlib.Data.List.Induction
import RegEngine.Execution.TenantRegistry
import RegEngine.Lib.Text

/-!
# Tenant isolation in OPA

The policy ids of a tenant are the texts that begin with `tenants_<tenant>_`, so two tenants share
ids exactly when one tenant id, followed by `_`, begins the other. A package that already begins with
`tenants.<tenant>` is taken as it is, also when the tenant's name goes on after that.

* `isolated_iff`: the ids and packages of two tenants are apart exactly when neither tenant id,
  followed by `_` or by `.`, begins the other, and the packages do not go on inside the name.
* `run_keeps_policies`: then no run of requests of other tenants touches a tenant's policies.
* `package_of_rewritePackage`: a published module declares only the scoped package.
-/

namespace RegEngine.Execution

open Lib.Python Lib.Text Compiler

/-- The package is `tenants.t` or lies strictly below it. -/
def Within (tenantId package : String) : Prop :=
  package = "tenants." ++ tenantId ∨ startsWith package ("tenants." ++ tenantId ++ ".")

instance (tenantId package : String) : Decidable (Within tenantId package) :=
  inferInstanceAs (Decidable (_ ∨ _))

/-- What keeps two tenants apart in the shared server. -/
structure Isolated (t₁ t₂ p₁ p₂ : String) : Prop where
  /-- Neither can overwrite or remove a policy of the other. -/
  ids : ∀ r₁ r₂, scopedRuleId t₁ r₁ ≠ scopedRuleId t₂ r₂
  within₁ : Within t₁ (scopedPackage t₁ p₁)
  within₂ : Within t₂ (scopedPackage t₂ p₂)
  /-- No package is in the namespace of both. -/
  apart : ∀ q, Within t₁ q → ¬ Within t₂ q

/-- Neither tenant id, followed by the separator, begins the other. -/
def Unrelated (sep : Char) (t₁ t₂ : String) : Prop :=
  ¬ t₁.toList ++ [sep] <+: t₂.toList ∧ ¬ t₂.toList ++ [sep] <+: t₁.toList

instance (sep : Char) (t₁ t₂ : String) : Decidable (Unrelated sep t₁ t₂) :=
  inferInstanceAs (Decidable (_ ∧ _))

/-! ## Policy ids -/

theorem isPrefix_scopedRuleId (t r : String) :
    ("tenants_" ++ t ++ "_").toList <+: (scopedRuleId t r).toList := by
  by_cases h : startsWith r ("tenants_" ++ t ++ "_")
  · rw [show scopedRuleId t r = r from if_pos h]
    exact startsWith_iff.1 h
  · rw [show scopedRuleId t r = "tenants_" ++ t ++ "_" ++ r from if_neg h]
    exact ⟨r.toList, String.toList_append.symm⟩

theorem scopedRuleId_of_isPrefix {t r : String} (h : ("tenants_" ++ t ++ "_").toList <+: r.toList) :
    scopedRuleId t r = r :=
  if_pos (startsWith_iff.2 h)

/-- The ids of two tenants are apart exactly when neither tenant id and `_` begins the other. -/
theorem scopedRuleId_ne_iff {t₁ t₂ : String} (hne : t₁ ≠ t₂) :
    (∀ r₁ r₂, scopedRuleId t₁ r₁ ≠ scopedRuleId t₂ r₂) ↔ Unrelated '_' t₁ t₂ := by
  have hnames : "tenants_".toList ++ t₁.toList ≠ "tenants_".toList ++ t₂.toList :=
    fun h => hne (String.toList_injective (List.append_cancel_left h))
  have hshare : (∃ s : List Char, ("tenants_" ++ t₁ ++ "_").toList <+: s ∧
      ("tenants_" ++ t₂ ++ "_").toList <+: s) ↔
      t₁.toList ++ ['_'] <+: t₂.toList ∨ t₂.toList ++ ['_'] <+: t₁.toList := by
    have := exists_below_both (c := '_') hnames
    rw [List.append_assoc, List.append_assoc, List.prefix_append_right_inj,
      List.prefix_append_right_inj] at this
    simpa only [String.toList_append, List.append_assoc, show "_".toList = ['_'] from rfl] using this
  rw [Unrelated, ← not_or, ← hshare]
  constructor
  · rintro h ⟨s, h₁, h₂⟩
    refine h (String.ofList s) (String.ofList s) ?_
    rw [scopedRuleId_of_isPrefix (by simpa using h₁), scopedRuleId_of_isPrefix (by simpa using h₂)]
  · intro h r₁ r₂ heq
    exact h ⟨_, isPrefix_scopedRuleId t₁ r₁, heq ▸ isPrefix_scopedRuleId t₂ r₂⟩

/-! ## Packages -/

/-- A package is in the namespace when, followed by a dot, it begins with the namespace and a dot. -/
theorem within_iff_isPrefix {t p : String} :
    Within t p ↔ ("tenants.".toList ++ t.toList) ++ ['.'] <+: p.toList ++ ['.'] := by
  rw [Within, List.prefix_concat_iff, startsWith_iff, ← String.toList_inj]
  simp only [String.toList_append]
  refine or_congr ?_ Iff.rfl
  exact ⟨fun h => by rw [h], fun h => (List.append_cancel_right h).symm⟩

/-- Scoping leaves the namespace exactly for a package that begins with the namespace's name and goes
on inside it. -/
theorem within_scopedPackage_iff {t p : String} :
    Within t (scopedPackage t p) ↔ (startsWith p ("tenants." ++ t) → Within t p) := by
  by_cases h : startsWith p ("tenants." ++ t)
  · simp [scopedPackage, h]
  · refine iff_of_true (.inr ?_) fun h' => absurd h' h
    rw [show scopedPackage t p = "tenants." ++ t ++ "." ++ p from if_neg h, startsWith_iff]
    exact ⟨p.toList, String.toList_append.symm⟩

/-- Two namespaces overlap exactly when one tenant id and a dot begins the other. -/
theorem within_apart_iff {t₁ t₂ : String} (hne : t₁ ≠ t₂) :
    (∀ q, Within t₁ q → ¬ Within t₂ q) ↔ Unrelated '.' t₁ t₂ := by
  have hnames : "tenants.".toList ++ t₁.toList ≠ "tenants.".toList ++ t₂.toList :=
    fun h => hne (String.toList_injective (List.append_cancel_left h))
  have hshare := exists_below_both (c := '.') hnames
  rw [List.append_assoc, List.append_assoc, List.prefix_append_right_inj,
    List.prefix_append_right_inj] at hshare
  rw [Unrelated, ← not_or, ← hshare]
  constructor
  · rintro h ⟨s, h₁, h₂⟩
    refine h (String.ofList s) (within_iff_isPrefix.2 ?_) (within_iff_isPrefix.2 ?_)
    · simpa using h₁.trans (List.prefix_append s ['.'])
    · simpa using h₂.trans (List.prefix_append s ['.'])
  · intro h q h₁ h₂
    refine h ⟨q.toList ++ ['.'], ?_, ?_⟩
    · simpa using within_iff_isPrefix.1 h₁
    · simpa using within_iff_isPrefix.1 h₂

/-- **Two tenants are isolated exactly when** neither tenant id, followed by `_` or by `.`, begins the
other, and each package that begins with its tenant's namespace is the namespace or below it. -/
theorem isolated_iff (t₁ t₂ p₁ p₂ : String) (hne : t₁ ≠ t₂) :
    Isolated t₁ t₂ p₁ p₂ ↔
      Unrelated '_' t₁ t₂ ∧ Unrelated '.' t₁ t₂ ∧
      (startsWith p₁ ("tenants." ++ t₁) → Within t₁ p₁) ∧
      (startsWith p₂ ("tenants." ++ t₂) → Within t₂ p₂) := by
  rw [← scopedRuleId_ne_iff hne, ← within_apart_iff hne, ← within_scopedPackage_iff,
    ← within_scopedPackage_iff]
  exact ⟨fun h => ⟨h.ids, h.apart, h.within₁, h.within₂⟩,
    fun h => ⟨h.1, h.2.2.1, h.2.2.2, h.2.1⟩⟩

theorem isolated_stockbroker_amc :
    "stockbroker_a" ≠ "amc_b" ∧
    Isolated "stockbroker_a" "amc_b" "sebi.upfront_margin" "tenants.amc_b.sebi.nav" :=
  ⟨by decide, (isolated_iff _ _ _ _ (by decide)).2 (by decide)⟩

/-- A tenant whose id begins with another's id and `_` computes the same policy id; a package that
goes on inside the tenant's name is left in another tenant's namespace. -/
theorem not_isolated :
    "a" ≠ "a_b" ∧ scopedRuleId "a" "b_x" = scopedRuleId "a_b" "x" ∧
    "a" ≠ "ab" ∧ ¬ Within "a" (scopedPackage "a" "tenants.ab.x") ∧
    decisionPath "a" "tenants.ab.x" = decisionPath "ab" "x" := by
  decide

/-! ## Runs of the shared server -/

theorem applyOp_of_ne {policies : OpaPolicies} {op : TenantOp} {id : String}
    (h : ∀ r, id ≠ scopedRuleId op.tenantId r) : policies.applyOp op id = policies id := by
  cases op with
  | publish t c accepted => exact if_neg fun hid => h _ hid.2
  | remove t r accepted => exact if_neg fun hid => h _ hid.2

/-- **No run of requests of unrelated tenants touches a policy of the tenant.** -/
theorem run_keeps_policies (t r : String) : ∀ (ops : List TenantOp) (policies : OpaPolicies),
    (∀ op ∈ ops, t ≠ op.tenantId ∧ Unrelated '_' t op.tenantId) →
    ops.foldl OpaPolicies.applyOp policies (scopedRuleId t r) = policies (scopedRuleId t r)
  | [], _, _ => rfl
  | op :: ops, policies, h => by
    have hop := h op List.mem_cons_self
    rw [List.foldl_cons, run_keeps_policies t r ops _ fun o ho => h o (List.mem_cons_of_mem _ ho)]
    exact applyOp_of_ne fun r' => (scopedRuleId_ne_iff hop.1).2 hop.2 r r'

/-- Every line of a published module that reads as a package declaration is that of the scoped
package. -/
theorem package_of_rewritePackage {package regoCode line : String}
    (h : line ∈ rewritePackage package regoCode) (hline : startsWith (strip line) "package ") :
    line = "package " ++ package := by
  obtain ⟨l, -, rfl⟩ := List.mem_map.1 h
  by_cases hl : startsWith (strip l) "package "
  · rw [if_pos hl]
  · rw [if_neg hl] at hline
    exact absurd hline hl

end RegEngine.Execution

/-!
## The package a tenant is served

`register` appends an entry that is not there yet and leaves an older package of the rule before it,
and the lookup takes the first entry of each rule: the oldest package since the rule was last
unregistered.

* `find?_entries_run`: after any run a field holds first, for each rule, its oldest package there.
* `package_policiesFor_run`: the package that a lookup serves.
* `servesNewest_iff`: when that is the newest one.
-/

namespace RegEngine.Execution

open Lib Compiler

/-! ### The history of a rule -/

/-- A registration of a rule: the fields it covers and the package. -/
structure Registration where
  scope : List String
  package : String

/-- What a call does to the registrations of a tenant's rule. -/
def registrationStep (tenantId ruleId : String) (regs : List Registration) :
    TenantRegistryOp → List Registration
  | .register t c entityTypes =>
    if t = tenantId ∧ c.ruleId = ruleId then regs ++ [⟨scopeOf entityTypes, c.package⟩] else regs
  | .unregister t r => if t = tenantId ∧ r = ruleId then [] else regs

/-- The registrations of the rule by the tenant since it was last unregistered, in order. -/
def registrations (tenantId ruleId : String) (ops : List TenantRegistryOp) : List Registration :=
  ops.foldl (registrationStep tenantId ruleId) []

/-- The packages registered under a field. -/
def packagesUnder (key : String) (regs : List Registration) : List String :=
  (regs.filter fun reg => key ∈ reg.scope).map (·.package)

/-- The packages whose registration covers an entity type, by its own field or by `"*"`. -/
def packagesCovering (entityType : String) (regs : List Registration) : List String :=
  (regs.filter fun reg => entityType ∈ reg.scope ∨ "*" ∈ reg.scope).map (·.package)

/-- The oldest package under the entity type, else under `"*"`. -/
def oldest (entityType : String) (regs : List Registration) : Option String :=
  (packagesUnder entityType regs).head?.or (packagesUnder "*" regs).head?

/-- The newest package under the entity type, else under `"*"`. -/
def newestScoped (entityType : String) (regs : List Registration) : Option String :=
  (packagesUnder entityType regs).getLast?.or (packagesUnder "*" regs).getLast?

/-- The newest package that covers the entity type. -/
def newestCovering (entityType : String) (regs : List Registration) : Option String :=
  (packagesCovering entityType regs).getLast?

theorem registrations_concat (tenantId ruleId : String) (ops : List TenantRegistryOp)
    (op : TenantRegistryOp) :
    registrations tenantId ruleId (ops ++ [op]) =
      registrationStep tenantId ruleId (registrations tenantId ruleId ops) op := by
  simp [registrations]

theorem run_concat (ops : List TenantRegistryOp) (op : TenantRegistryOp) :
    TenantHashes.run (ops ++ [op]) = (TenantHashes.run ops).applyOp op := by
  simp [TenantHashes.run]

/-! ### The first entry of a rule -/

/-- The package of the first entry of a rule. -/
def firstPackage (ruleId : String) (entries : List TenantEntry) : Option String :=
  (entries.find? (·.ruleId = ruleId)).map (·.package)

theorem firstPackage_append (ruleId : String) (l m : List TenantEntry) :
    firstPackage ruleId (l ++ m) = (firstPackage ruleId l).or (firstPackage ruleId m) := by
  rw [firstPackage, List.find?_append, Option.map_or]
  rfl

/-- Appending an entry that is not there yet. -/
theorem firstPackage_insert (r : String) (l : List TenantEntry) (x : TenantEntry) :
    firstPackage r (if x ∈ l then l else l ++ [x]) =
      if x.ruleId = r then (firstPackage r l).or (some x.package) else firstPackage r l := by
  by_cases hr : x.ruleId = r
  · rw [if_pos hr]
    split
    · rename_i hmem
      -- an entry of the rule is there already
      have hsome : (l.find? (·.ruleId = r)).isSome := by
        rw [List.find?_isSome]
        exact ⟨x, hmem, by simpa using hr⟩
      obtain ⟨e, he⟩ := Option.isSome_iff_exists.1 hsome
      rw [firstPackage, he]
      rfl
    · rw [firstPackage_append]
      simp [firstPackage, hr]
  · rw [if_neg hr]
    split
    · rfl
    · rw [firstPackage_append]
      simp [firstPackage, hr]

section
variable {H : TenantHashes} {R : TenantPolicyRegistry} {c : CompiledRego} {t k r : String}

theorem firstPackage_registerKey (key : String) :
    firstPackage r ((R.registerKey c H key).entries t k) =
      if t = R.tenantId ∧ c.ruleId = r ∧ k = key then
        (firstPackage r (H.entries t k)).or (some c.package)
      else firstPackage r (H.entries t k) := by
  by_cases hkey : t = R.tenantId ∧ k = key
  · obtain ⟨rfl, rfl⟩ := hkey
    have hentries : (R.registerKey c H k).entries R.tenantId k =
        if (⟨c.ruleId, c.package⟩ : TenantEntry) ∈ H.entries R.tenantId k then H.entries R.tenantId k
        else H.entries R.tenantId k ++ [⟨c.ruleId, c.package⟩] := by
      simp [TenantPolicyRegistry.registerKey, TenantHashes.entries]
    rw [hentries, firstPackage_insert]
    simp
  · have hentries : (R.registerKey c H key).entries t k = H.entries t k := by
      simp [TenantPolicyRegistry.registerKey, TenantHashes.entries, hkey]
    rw [hentries, if_neg fun h => hkey ⟨h.1, h.2.2⟩]

/-- Writing a field more than once is writing it once. -/
theorem firstPackage_register (entityTypes : List String) :
    firstPackage r ((R.register c entityTypes H).entries t k) =
      if t = R.tenantId ∧ c.ruleId = r ∧ k ∈ scopeOf entityTypes then
        (firstPackage r (H.entries t k)).or (some c.package)
      else firstPackage r (H.entries t k) := by
  unfold TenantPolicyRegistry.register
  induction scopeOf entityTypes generalizing H with
  | nil => simp
  | cons key keys ih =>
    rw [List.foldl_cons, ih, firstPackage_registerKey]
    by_cases hk : k = key <;> by_cases hmem : k ∈ keys <;> simp [hk, hmem]
    · split <;> simp_all
    · simp_all

theorem firstPackage_filter (ruleId : String) (l : List TenantEntry) :
    firstPackage r (l.filter fun e => e.ruleId ≠ ruleId) =
      if ruleId = r then none else firstPackage r l := by
  unfold firstPackage
  rw [List.find?_filter]
  split
  · rename_i h
    subst h
    simp
  · rename_i h
    congr 2
    funext e
    by_cases he : e.ruleId = r
    · simp [he, Ne.symm h]
    · simp [he]

theorem firstPackage_unregister (ruleId : String) :
    firstPackage r ((R.unregister ruleId H).entries t k) =
      if t = R.tenantId ∧ ruleId = r then none else firstPackage r (H.entries t k) := by
  by_cases ht : t = R.tenantId
  · have hentries : (R.unregister ruleId H).entries t k =
        (H.entries t k).filter fun e => e.ruleId ≠ ruleId := by
      simp only [TenantPolicyRegistry.unregister, TenantHashes.entries, if_pos ht]
      cases H.hash t k with
      | none => rfl
      | some es =>
        rw [Option.bind_some, Option.getD_some]
        split
        · rename_i hempty
          rw [List.isEmpty_iff.1 hempty, Option.getD_none]
        · rfl
    rw [hentries, firstPackage_filter]
    simp [ht]
  · have hentries : (R.unregister ruleId H).entries t k = H.entries t k := by
      simp [TenantPolicyRegistry.unregister, TenantHashes.entries, ht]
    rw [hentries, if_neg fun h => ht h.1]

end

theorem packagesUnder_append (key : String) (regs : List Registration) (reg : Registration) :
    packagesUnder key (regs ++ [reg]) =
      packagesUnder key regs ++ if key ∈ reg.scope then [reg.package] else [] := by
  by_cases h : key ∈ reg.scope <;> simp [packagesUnder, List.filter_append, h]

/-- **A field holds first the oldest package of each rule under it**, after any run. -/
theorem firstPackage_run (t k r : String) (ops : List TenantRegistryOp) :
    firstPackage r ((TenantHashes.run ops).entries t k) =
      (packagesUnder k (registrations t r ops)).head? := by
  induction ops using List.reverseRecOn with
  | nil => rfl
  | append_singleton ops op ih =>
    rw [run_concat, registrations_concat]
    cases op with
    | register t' c entityTypes =>
      show firstPackage r (((TenantPolicyRegistry.mk t').register c entityTypes _).entries t k) = _
      rw [firstPackage_register, ih, registrationStep]
      by_cases hrule : t' = t ∧ c.ruleId = r
      · rw [if_pos hrule, packagesUnder_append, List.head?_append]
        by_cases hk : k ∈ scopeOf entityTypes
        · simp [hrule.1, hrule.2, hk]
        · simp [hk]
      · rw [if_neg hrule, if_neg fun h => hrule ⟨h.1.symm, h.2.1⟩]
    | unregister t' ruleId =>
      show firstPackage r (((TenantPolicyRegistry.mk t').unregister ruleId _).entries t k) = _
      rw [firstPackage_unregister, ih, registrationStep]
      by_cases hrule : t' = t ∧ ruleId = r
      · rw [if_pos hrule, if_pos ⟨hrule.1.symm, hrule.2⟩]
        rfl
      · rw [if_neg hrule, if_neg fun h => hrule ⟨h.1.symm, h.2⟩]

/-- **The package that a lookup serves**, after any run: the tenant's oldest, else the baseline's. -/
theorem firstPackage_policiesFor_run (t e r : String) (ops : List TenantRegistryOp) :
    firstPackage r ((TenantPolicyRegistry.mk t).policiesFor (TenantHashes.run ops) e) =
      (oldest e (registrations t r ops)).or (oldest e (registrations baselineTenant r ops)) := by
  have hfind : ∀ l : List TenantEntry, firstPackage r (firstHits (·.ruleId) [] l) = firstPackage r l := by
    intro l
    rw [firstPackage, find?_firstHits List.not_mem_nil]
    rfl
  have holdest : ∀ t', firstPackage r ((TenantHashes.run ops).entries t' e ++
      (TenantHashes.run ops).entries t' "*") = oldest e (registrations t' r ops) := by
    intro t'
    rw [firstPackage_append, firstPackage_run, firstPackage_run]
    rfl
  unfold TenantPolicyRegistry.policiesFor
  dsimp only
  rw [hfind, firstPackage_append, holdest]
  by_cases ht : t = baselineTenant
  · rw [if_neg (not_not.2 ht), ht, Option.or_self]
    exact Option.or_none
  · rw [if_pos ht, holdest]

/-! ### The newest package -/

/-- A lookup returns each rule once, with the tenant's newest package if it has one and the baseline's
otherwise, for a notion of the newest of a rule's registrations. -/
def ServesNewest (newest : List Registration → Option String) (ops : List TenantRegistryOp)
    (t e : String) : Prop :=
  let policies := (TenantPolicyRegistry.mk t).policiesFor (TenantHashes.run ops) e
  (policies.map (·.ruleId)).Nodup ∧
    ∀ r, firstPackage r policies =
      (newest (registrations t r ops)).or (newest (registrations baselineTenant r ops))

/-- For every rule the oldest package is the newest: the tenant's, and where it has none the
baseline's. -/
def OldestIsNewest (newest : List Registration → Option String) (ops : List TenantRegistryOp)
    (t e : String) : Prop :=
  ∀ r, oldest e (registrations t r ops) = newest (registrations t r ops) ∧
    (newest (registrations t r ops) = none →
      oldest e (registrations baselineTenant r ops) = newest (registrations baselineTenant r ops))

theorem servesNewest_iff_oldest {newest : List Registration → Option String} {e : String}
    (hnewest : ∀ regs, (newest regs).isSome = (oldest e regs).isSome) (ops : List TenantRegistryOp)
    (t : String) : ServesNewest newest ops t e ↔ OldestIsNewest newest ops t e := by
  have hnodup : (((TenantPolicyRegistry.mk t).policiesFor (TenantHashes.run ops) e).map
      (·.ruleId)).Nodup := nodup_firstHits _ _ _
  show _ ∧ _ ↔ _
  rw [and_iff_right hnodup]
  apply forall_congr'
  intro r
  rw [firstPackage_policiesFor_run]
  have hown := hnewest (registrations t r ops)
  cases hold : oldest e (registrations t r ops) <;> cases hnew : newest (registrations t r ops)
  · simp
  · rw [hold, hnew] at hown
    cases hown
  · rw [hold, hnew] at hown
    cases hown
  · simp

theorem isSome_getLast?_eq {α : Type} (l : List α) : l.getLast?.isSome = l.head?.isSome := by
  cases l with
  | nil => rfl
  | cons a l => rw [List.getLast?_isSome.2 (List.cons_ne_nil a l), List.head?_cons, Option.isSome_some]

theorem isSome_newestScoped (e : String) (regs : List Registration) :
    (newestScoped e regs).isSome = (oldest e regs).isSome := by
  rw [newestScoped, oldest, Option.isSome_or, Option.isSome_or, isSome_getLast?_eq, isSome_getLast?_eq]

theorem isSome_newestCovering (e : String) (regs : List Registration) :
    (newestCovering e regs).isSome = (oldest e regs).isSome := by
  rw [newestCovering, isSome_getLast?_eq, oldest, Option.isSome_or]
  induction regs with
  | nil => rfl
  | cons reg regs ih =>
    by_cases he : e ∈ reg.scope <;> by_cases hstar : "*" ∈ reg.scope <;>
      simp_all [packagesCovering, packagesUnder]

/-- **When a lookup serves the newest package**, whether a registration under the entity type comes
before all those under `"*"`, as in the lookup, or all that cover it count alike. -/
theorem servesNewest_iff (ops : List TenantRegistryOp) (t e : String) :
    (ServesNewest (newestScoped e) ops t e ↔ OldestIsNewest (newestScoped e) ops t e) ∧
      (ServesNewest (newestCovering e) ops t e ↔ OldestIsNewest (newestCovering e) ops t e) :=
  ⟨servesNewest_iff_oldest (isSome_newestScoped e) ops t,
    servesNewest_iff_oldest (isSome_newestCovering e) ops t⟩

/-- A tenant registers a rule, and again under another package. -/
def reregistration : List TenantRegistryOp :=
  [.register "stockbroker_a" ⟨"r", "regengine.sebi.v1", "", 1, 1, none, none⟩ ["Stockbroker"],
    .register "stockbroker_a" ⟨"r", "regengine.sebi.v2", "", 1, 2, none, none⟩ ["Stockbroker"]]

/-- It is served the older package. -/
theorem servesNewest_reregistration :
    (TenantPolicyRegistry.mk "stockbroker_a").policiesFor (TenantHashes.run reregistration)
        "Stockbroker" = [⟨"r", "regengine.sebi.v1"⟩] ∧
      ¬ ServesNewest (newestScoped "Stockbroker") reregistration "stockbroker_a" "Stockbroker" ∧
      ¬ ServesNewest (newestCovering "Stockbroker") reregistration "stockbroker_a" "Stockbroker" := by
  refine ⟨by decide, fun h => ?_, fun h => ?_⟩
  · exact absurd (h.2 "r") (by decide)
  · exact absurd (h.2 "r") (by decide)

end RegEngine.Execution
