import RegEngine.Native.PackPolicy
import RegEngine.Native.Proof.Comparison

/-!
# What packing keeps

Flattening appends one check for each comparison of the tree and gives the slot of its fact, however
the conjunctions nest. The entity clause of the rule becomes the hash of the header.

* `Packs`: the checks and slots so far stand for these comparisons; `Packs.append`: one more.
* `flattenChecks_node`, `flattenChecks_conjunction`: the comparisons that a node adds.
* `flattenLogic_packs`: what the tree of a rule is packed into.
-/

namespace RegEngine.Native

open Lib Lib.Python Lib.Except Compiler

/-! ## Slots -/

/-- **What a resolution does**: the field has the slot it returns, and the other slots stay. -/
theorem FieldSlotResolver.resolve_ok {resolver resolver' : FieldSlotResolver} {f : String} {slot : Nat}
    (h : resolver.resolve ("facts." ++ f) = .ok (resolver', slot)) :
    (f, slot) ∈ resolver'.slots ∧ (∀ p ∈ resolver.slots, p ∈ resolver'.slots) ∧
      ∀ p ∈ resolver'.slots, p ∈ resolver.slots ∨ p.1 = f := by
  have hfield : String.ofList (("facts." ++ f).toList.drop 6) = f := by
    rw [← String.toList_inj]
    simp
  unfold FieldSlotResolver.resolve at h
  split at h
  · cases h
  · rw [hfield] at h
    unfold FieldSlotResolver.slotOf at h
    split at h
    · rename_i hlookup
      cases h
      obtain ⟨before, after, hsplit, -⟩ := List.lookup_eq_some_iff.1 hlookup
      refine ⟨?_, fun _ hp => hp, fun _ hp => .inl hp⟩
      rw [hsplit]
      exact List.mem_append_right _ List.mem_cons_self
    · split at h
      · cases h
      · cases h
        refine ⟨?_, fun p hp => List.mem_append_left _ hp, fun p hp => ?_⟩
        · exact List.mem_append_right _ (List.mem_singleton.2 rfl)
        · cases List.mem_append.1 hp with
          | inl hold => exact .inl hold
          | inr hnew => exact .inr (List.mem_singleton.1 hnew ▸ rfl)

/-! ## Checks -/

/-- The code of an operator that is not a range. -/
def operatorCode : ComparisonOperator → Nat
  | .gte => 0
  | .gt => 1
  | .lte => 2
  | .lt => 3
  | .eq => 4
  | .range => 5

/-- The check of a comparison. -/
structure CheckOf (slots : List (String × Nat)) (c : Comparison) (check : PackedCheck) : Prop where
  slot : (c.fact, check.slot) ∈ slots
  code : check.code = operatorCode c.operator
  value : check.value = .ofRat c.value.toRat

theorem CheckOf.mono {slots slots' : List (String × Nat)} (hsub : ∀ p ∈ slots, p ∈ slots')
    {c : Comparison} {check : PackedCheck} (h : CheckOf slots c check) : CheckOf slots' c check :=
  ⟨hsub _ h.slot, h.code, h.value⟩

/-- The checks stand for the comparisons, and every slot is that of a fact they name. -/
structure Packs (packing : Packing) (cs : List Comparison) : Prop where
  checks : List.Forall₂ (CheckOf packing.resolver.slots) cs packing.checks
  named : ∀ p ∈ packing.resolver.slots, ∃ c ∈ cs, c.fact = p.1

theorem packs_nil : Packs {} [] := ⟨.nil, fun _ hp => by cases hp⟩

/-- **A comparison adds its check.** -/
theorem Packs.append {packing packing' : Packing} {cs : List Comparison} (h : Packs packing cs)
    {c : Comparison}
    (happend : appendCheck packing c.operator.value (operatorCode c.operator)
      (.arr [varNode ("facts." ++ c.fact), .float c.value]) = .ok packing') :
    Packs packing' (cs ++ [c]) := by
  unfold appendCheck at happend
  dsimp only at happend
  have hvar : (varNode ("facts." ++ c.fact)).get? "var" = some (.str ("facts." ++ c.fact)) := rfl
  rw [hvar] at happend
  obtain ⟨-, -, happend⟩ := bind_ok_iff.1 happend
  obtain ⟨⟨resolver, slot⟩, hresolve, happend⟩ := bind_ok_iff.1 happend
  obtain ⟨value, hvalue, happend⟩ := bind_ok_iff.1 happend
  cases hvalue
  cases happend
  obtain ⟨hslot, hkept, hnew⟩ := FieldSlotResolver.resolve_ok hresolve
  constructor
  · refine List.rel_append ?_ (.cons ⟨hslot, rfl, rfl⟩ .nil)
    exact h.checks.imp fun _ _ hcheck => hcheck.mono hkept
  · intro p hp
    cases hnew p hp with
    | inl hold =>
      obtain ⟨c', hc', hfact⟩ := h.named p hold
      exact ⟨c', List.mem_append_left _ hc', hfact⟩
    | inr hfact => exact ⟨c, List.mem_append_right _ (List.mem_singleton.2 rfl), hfact.symm⟩

/-! ## Nodes -/

/-- Flattening the node adds these comparisons. -/
def Flattens (node : Json) (cs : List Comparison) : Prop :=
  ∀ ⦃packing packing' : Packing⦄ ⦃done : List Comparison⦄, Packs packing done →
    flattenChecks packing node = .ok packing' → Packs packing' (done ++ cs)

theorem flattens_comparison (c : Comparison) : Flattens c.node [c] := by
  intro packing packing' done h hflatten
  have happend : flattenChecks packing c.node =
      appendCheck packing c.operator.value (operatorCode c.operator)
        (.arr [varNode ("facts." ++ c.fact), .float c.value]) := by
    obtain ⟨fact, operator, value, hne⟩ := c
    cases operator with
    | gte => rfl
    | gt => rfl
    | lte => rfl
    | lt => rfl
    | eq => rfl
    | range => exact absurd rfl hne
  rw [happend] at hflatten
  exact h.append hflatten

theorem flattens_items {items : List Json} {css : List (List Comparison)}
    (hitems : List.Forall₂ Flattens items css) {packing packing' : Packing} {done : List Comparison}
    (h : Packs packing done) (hflatten : flattenItems packing items = .ok packing') :
    Packs packing' (done ++ css.flatten) := by
  induction hitems generalizing packing done with
  | nil =>
    cases hflatten
    simpa using h
  | @cons item cs items css hitem _ ih =>
    obtain ⟨middle, hmiddle, hrest⟩ := bind_ok_iff.1 hflatten
    have htail := ih (hitem h hmiddle) hrest
    rwa [List.append_assoc] at htail

theorem flattens_and {items : List Json} {css : List (List Comparison)}
    (hitems : List.Forall₂ Flattens items css) :
    Flattens (Compiler.node "and" (.arr items)) css.flatten :=
  fun _ _ _ h hflatten => flattens_items hitems h hflatten

theorem forall₂_flattens (cs : List Comparison) :
    List.Forall₂ Flattens (cs.map Comparison.node) (cs.map fun c => [c]) := by
  induction cs with
  | nil => exact .nil
  | cons c cs ih => exact .cons (flattens_comparison c) ih

/-- The clause of a threshold adds its comparisons. -/
theorem flattens_conjunction (cs : List Comparison) :
    Flattens (conjunction (cs.map Comparison.node)) cs := by
  have hand : Flattens (Compiler.node "and" (.arr (cs.map Comparison.node))) cs := by
    have h := flattens_and (forall₂_flattens cs)
    rwa [← List.flatMap_def, List.flatMap_singleton'] at h
  match cs with
  | [] => exact hand
  | [c] => exact flattens_comparison c
  | _ :: _ :: _ => exact hand

/-! ## The entity clause -/

theorem extractEntityTypeHash_compare (path : String) (value : Decimal) :
    extractEntityTypeHash (Compiler.node "==" (.arr [varNode path, .float value])) =
      .ok (0, some (Compiler.node "==" (.arr [varNode path, .float value]))) := rfl

theorem extractEntityTypeHash_comparison (c : Comparison) :
    extractEntityTypeHash c.node = .ok (0, some c.node) := by
  obtain ⟨fact, operator, value, hne⟩ := c
  cases operator with
  | eq => rw [Comparison.node, ComparisonOperator.value, extractEntityTypeHash_compare]
  | gte => rfl
  | gt => rfl
  | lte => rfl
  | lt => rfl
  | range => exact absurd rfl hne

/-- The clause of a threshold is no entity clause. -/
theorem extractEntityTypeHash_conjunction (cs : List Comparison) :
    extractEntityTypeHash (conjunction (cs.map Comparison.node)) =
      .ok (0, some (conjunction (cs.map Comparison.node))) := by
  match cs with
  | [] => rfl
  | [c] => exact extractEntityTypeHash_comparison c
  | _ :: _ :: _ => rfl

theorem scanChildren_kept {children : List Json} (hash : Nat)
    (h : ∀ child ∈ children, extractEntityTypeHash child = .ok (0, some child)) :
    scanChildren hash children = .ok (hash, children) := by
  induction children with
  | nil => rfl
  | cons child children ih =>
    rw [scanChildren, h child List.mem_cons_self]
    show (scanChildren hash children >>= fun r => pure (r.1, child :: r.2)) = _
    rw [ih fun c hc => h c (List.mem_cons_of_mem _ hc)]
    rfl

/-- The entity clause that packing takes out: that of a single entity, with a hash that is not 0. -/
theorem scanChildren_entity {e : String} {children : List Json} (hhash : fnv1a (encode e) ≠ 0)
    (h : ∀ child ∈ children, extractEntityTypeHash child = .ok (0, some child)) :
    scanChildren 0 (Compiler.node "==" (.arr [varNode "entity_type", .str e]) :: children) =
      .ok (fnv1a (encode e), children) := by
  have hextract : extractEntityTypeHash (Compiler.node "==" (.arr [varNode "entity_type", .str e])) =
      .ok (fnv1a (encode e), none) := rfl
  rw [scanChildren, hextract]
  show (if fnv1a (encode e) ≠ 0 ∧ (none : Option Json).isNone then
    scanChildren (fnv1a (encode e)) children else _) = _
  rw [if_pos ⟨hhash, rfl⟩, scanChildren_kept _ h]

theorem flattenLogic_and {items : List Json} {hash : Nat} {packing : Packing}
    (h : flattenLogic (Compiler.node "and" (.arr items)) = .ok (hash, packing)) :
    ∃ kept, scanChildren 0 items = .ok (hash, kept) ∧ flattenItems {} kept = .ok packing := by
  obtain ⟨children, hchildren, h⟩ := bind_ok_iff.1 h
  cases hchildren
  obtain ⟨⟨hash', kept⟩, hscan, h⟩ := bind_ok_iff.1 h
  obtain ⟨packing', hflatten, heq⟩ := bind_ok_iff.1 h
  cases heq
  exact ⟨kept, hscan, hflatten⟩

/-- A conjunction without entity clause. -/
theorem flattenLogic_items {items : List Json} {css : List (List Comparison)} {hash : Nat}
    {packing : Packing} (hitems : List.Forall₂ Flattens items css)
    (hkept : ∀ item ∈ items, extractEntityTypeHash item = .ok (0, some item))
    (h : flattenLogic (Compiler.node "and" (.arr items)) = .ok (hash, packing)) :
    hash = 0 ∧ Packs packing css.flatten := by
  obtain ⟨kept, hscan, hflatten⟩ := flattenLogic_and h
  rw [scanChildren_kept 0 hkept] at hscan
  cases hscan
  exact ⟨rfl, flattens_items hitems packs_nil hflatten⟩

/-- The clause of one threshold, as a whole tree. -/
theorem flattenLogic_conjunction {cs : List Comparison} {hash : Nat} {packing : Packing}
    (h : flattenLogic (conjunction (cs.map Comparison.node)) = .ok (hash, packing)) :
    hash = 0 ∧ Packs packing cs := by
  have hand : flattenLogic (Compiler.node "and" (.arr (cs.map Comparison.node))) = .ok (hash, packing) →
      hash = 0 ∧ Packs packing cs := by
    intro h
    have hitems := flattenLogic_items (forall₂_flattens cs)
      (List.forall_mem_map.2 fun c _ => extractEntityTypeHash_comparison c) h
    rwa [← List.flatMap_def, List.flatMap_singleton'] at hitems
  match cs with
  | [] => exact hand h
  | _ :: _ :: _ => exact hand h
  | [c] =>
    have hnone : c.node.get? "and" = none := by
      obtain ⟨fact, operator, value, hne⟩ := c
      cases operator <;> rfl
    change flattenLogic c.node = _ at h
    unfold flattenLogic at h
    rw [hnone, extractEntityTypeHash_comparison] at h
    obtain ⟨r, hr, h⟩ := bind_ok_iff.1 h
    cases hr
    obtain ⟨packing', hflatten, heq⟩ := bind_ok_iff.1 h
    cases heq
    exact ⟨rfl, flattens_comparison c packs_nil hflatten⟩

/-! ## The tree of a rule -/

/-- The clauses of thresholds with these comparisons. -/
def clausesOf (css : List (List Comparison)) : List Json :=
  css.map fun cs => conjunction (cs.map Comparison.node)

theorem flattens_clausesOf (css : List (List Comparison)) :
    List.Forall₂ Flattens (clausesOf css) css := by
  induction css with
  | nil => exact .nil
  | cons cs css ih => exact .cons (flattens_conjunction cs) ih

theorem extractEntityTypeHash_clausesOf (css : List (List Comparison)) :
    ∀ clause ∈ clausesOf css, extractEntityTypeHash clause = .ok (0, some clause) :=
  List.forall_mem_map.2 fun cs _ => extractEntityTypeHash_conjunction cs

theorem flattenLogic_clausesOf {css : List (List Comparison)} {hash : Nat} {packing : Packing}
    (h : flattenLogic (conjunction (clausesOf css)) = .ok (hash, packing)) :
    hash = 0 ∧ Packs packing css.flatten := by
  match css with
  | [] => exact flattenLogic_items .nil (extractEntityTypeHash_clausesOf []) h
  | [cs] =>
    rw [List.flatten_singleton]
    exact flattenLogic_conjunction h
  | cs :: cs' :: css =>
    exact flattenLogic_items (flattens_clausesOf _) (extractEntityTypeHash_clausesOf _) h

/-- The entity clause left in the tree cannot be packed. -/
theorem flattenItems_entity (g : String) (items : List Json) (packing : Packing) :
    flattenItems {} (Compiler.node "==" (.arr [varNode "entity_type", .str g]) :: items) ≠
      .ok packing := by
  intro h
  obtain ⟨middle, hmiddle, -⟩ := bind_ok_iff.1 h
  cases hmiddle

theorem flattenItems_in (haystack : Json) (items : List Json) (packing : Packing) :
    flattenItems {} (Compiler.node "in" (.arr [varNode "entity_type", haystack]) :: items) ≠
      .ok packing := by
  intro h
  obtain ⟨middle, hmiddle, -⟩ := bind_ok_iff.1 h
  cases hmiddle

/-- **What packing the tree of a rule keeps**: the comparisons of its thresholds, and the hash of its
entity if it has one. -/
theorem flattenLogic_packs {rule : ExtractedComplianceRule} {jl : JsonLogicRule} {hash : Nat}
    {packing : Packing} (hjl : compileRuleToJsonlogic rule = .ok jl)
    (h : flattenLogic jl.logic = .ok (hash, packing)) :
    ∃ css, List.Forall₂ Comparisons rule.deterministicLogic css ∧ Packs packing css.flatten ∧
      ((guardEntities rule = [] ∧ hash = 0) ∨
        ∃ g, guardEntities rule = [g] ∧ hash = fnv1a (encode g) ∧ hash ≠ 0) := by
  obtain ⟨clauses, hclauses, hne, hlogic⟩ := compileRuleToJsonlogic_logic hjl
  obtain ⟨css, hcss, rfl⟩ := mapM_comparisons hclauses
  change jl.logic = conjunction ((entityLogic rule).toList ++ clausesOf css) at hlogic
  have hkept := extractEntityTypeHash_clausesOf css
  refine ⟨css, hcss, ?_⟩
  -- an entity clause stands before at least one other, in a conjunction
  have hand : ∀ clause, conjunction ((some clause).toList ++ clausesOf css) =
      Compiler.node "and" (.arr (clause :: clausesOf css)) := by
    intro clause
    cases css with
    | nil => exact absurd (List.forall₂_nil_right_iff.1 hcss) hne
    | cons _ _ => rfl
  rw [hlogic] at h
  cases hguard : guardEntities rule with
  | nil =>
    have hentity : entityLogic rule = none := by rw [entityLogic, hguard]
    rw [hentity] at h
    obtain ⟨hhash, hpacks⟩ := flattenLogic_clausesOf h
    exact ⟨hpacks, .inl ⟨rfl, hhash⟩⟩
  | cons g gs =>
    cases gs with
    | nil =>
      have hentity : entityLogic rule =
          some (Compiler.node "==" (.arr [varNode "entity_type", .str g])) := by
        rw [entityLogic, hguard]
      rw [hentity, hand] at h
      obtain ⟨kept, hscan, hflatten⟩ := flattenLogic_and h
      by_cases hhash : fnv1a (encode g) = 0
      · have hextract : extractEntityTypeHash
            (Compiler.node "==" (.arr [varNode "entity_type", .str g])) = .ok (0, none) := by
          rw [← hhash]
          rfl
        have hkeep : scanChildren 0 (Compiler.node "==" (.arr [varNode "entity_type", .str g]) ::
            clausesOf css) =
            .ok (0, Compiler.node "==" (.arr [varNode "entity_type", .str g]) :: clausesOf css) := by
          rw [scanChildren, hextract]
          show (scanChildren 0 (clausesOf css) >>= fun r => pure (r.1, _ :: r.2)) = _
          rw [scanChildren_kept 0 hkept]
          rfl
        rw [hkeep] at hscan
        cases hscan
        exact absurd hflatten (flattenItems_entity g _ _)
      · rw [scanChildren_entity hhash hkept] at hscan
        cases hscan
        exact ⟨flattens_items (flattens_clausesOf css) packs_nil hflatten, .inr ⟨g, rfl, rfl, hhash⟩⟩
    | cons g' gs =>
      have hentity : entityLogic rule = some (Compiler.node "in"
          (.arr [varNode "entity_type", .arr ((g :: g' :: gs).map .str)])) := by
        rw [entityLogic, hguard]
      rw [hentity, hand] at h
      obtain ⟨kept, hscan, hflatten⟩ := flattenLogic_and h
      rw [scanChildren_kept 0 (List.forall_mem_cons.2 ⟨rfl, hkept⟩)] at hscan
      cases hscan
      exact absurd hflatten (flattenItems_in _ _ _)

end RegEngine.Native
