import RegEngine.Hitl.Status
import RegEngine.Hitl.System

/-!
# One circular and many

* `groupedJoin_counts`: what a grouped query returns for one circular is counted over the rows of its
  clauses.
* `batch_status_agrees`: the batch has for each circular the status and the counts that
  `get_circular_status` has.
-/

namespace RegEngine.Hitl

open Lib

section
variable {s : Store} {circularIds : List Nat} {circularId : Nat}

theorem nodup_clausesOf (s : Store) (circularId : Nat) :
    ((s.clausesOf circularId).map (·.1)).Nodup :=
  s.clauses.nodup.sublist (List.filter_sublist.map _)

/-- The rows of one circular in a grouped query, or no rows where it has none. -/
theorem groupedJoin_counts {α γ : Type} (rows : List (Nat × α)) (clauseId : α → Nat)
    (counts : List ((Nat × Clause) × (Nat × α)) → γ) (h : circularId ∈ circularIds) :
    (Query.dict (groupedJoin s circularIds rows clauseId counts) circularId).getD (counts []) =
      counts (Query.join (s.clausesOf circularId) rows fun c r => clauseId r.2 = c.1) := by
  rw [groupedJoin, Query.getD_dict_groupBy, List.filter_filter, Store.clausesOf, Table.select,
    ← Query.filter_join]
  congr 1
  refine List.filter_congr fun x _ => ?_
  by_cases hx : x.1.2.circularId = circularId
  · simp [hx, h]
  · simp [hx]

/-- A count over the joined rows is one over the rows of the circular's clauses. -/
theorem countP_clauses (s : Store) (circularId : Nat) {α : Type} (rows : List (Nat × α))
    (clauseId : α → Nat) (q : Nat × α → Bool) :
    (Query.join (s.clausesOf circularId) rows fun c r => clauseId r.2 = c.1).countP
        (fun x => q x.2) =
      (rows.filter fun r => clauseId r.2 ∈ (s.clausesOf circularId).map (·.1)).countP q :=
  Query.countP_join (fun r => clauseId r.2) (nodup_clausesOf s circularId) q rows

theorem rulesIn_of_nil (s : Store) (clauseIds : List Nat) :
    (if clauseIds = [] then [] else s.rulesIn clauseIds) = s.rulesIn clauseIds := by
  split
  · rename_i hnil
    simp [hnil, Store.rulesIn, Table.select]
  · rfl

theorem reviewsIn_of_nil (s : Store) (clauseIds : List Nat) :
    (if clauseIds = [] then [] else s.reviewsIn clauseIds) = s.reviewsIn clauseIds := by
  split
  · rename_i hnil
    simp [hnil, Store.reviewsIn, Table.select]
  · rfl

theorem clauseCount_batch (h : circularId ∈ circularIds) :
    (Query.dict (Query.groupBy (fun c : Nat × Clause => c.2.circularId) List.length
      (s.clauses.select fun c => c.circularId ∈ circularIds)) circularId).getD 0 =
      (s.clausesOf circularId).length := by
  have hgroup := Query.getD_dict_groupBy (fun c : Nat × Clause => c.2.circularId) List.length
    (s.clauses.select fun c => c.circularId ∈ circularIds) circularId
  rw [List.length_nil] at hgroup
  rw [hgroup, Table.select, List.filter_filter, Store.clausesOf, Table.select]
  congr 1
  refine List.filter_congr fun c _ => ?_
  by_cases hc : c.2.circularId = circularId
  · simp [hc, h]
  · simp [hc]

theorem activeRules_batch (h : circularId ∈ circularIds) :
    ((Query.dict (groupedJoin s circularIds s.rules.rows (·.clauseId) ruleCounts)
      circularId).getD (0, 0)).1 =
      (s.rulesIn ((s.clausesOf circularId).map (·.1))).countP fun r => r.2.isActive := by
  have hcounts := groupedJoin_counts (s := s) s.rules.rows (·.clauseId) ruleCounts h
  refine (congrArg Prod.fst hcounts).trans ?_
  exact countP_clauses s circularId s.rules.rows (·.clauseId) fun r => r.2.isActive

theorem reviews_batch (h : circularId ∈ circularIds) :
    let reviews := s.reviewsIn ((s.clausesOf circularId).map (·.1))
    (Query.dict (groupedJoin s circularIds s.reviews.rows (·.clauseId) reviewCounts)
      circularId).getD (0, 0, 0) =
      (reviews.countP isPending, reviews.countP isResolved, reviews.countP isRejected) := by
  have hcounts := groupedJoin_counts (s := s) s.reviews.rows (·.clauseId) reviewCounts h
  have hjoin := countP_clauses s circularId s.reviews.rows (·.clauseId)
  refine hcounts.trans ?_
  exact Prod.ext (hjoin isPending) (Prod.ext (hjoin isResolved) (hjoin isRejected))

theorem rejected_iff_any (l : List (Nat × HITLReview)) :
    decide (0 < l.countP isRejected) = l.any isRejected := by
  rw [Bool.eq_iff_iff, decide_eq_true_eq, List.countP_pos_iff, List.any_eq_true]

/-- The entry of the batch for a circular, counted over its own rows. -/
theorem batch_entry {circulars : List (Nat × Circular)}
    (hrows : ∀ c ∈ circulars, s.circulars.get? c.1 = some c.2) {c : Nat × Circular}
    (hc : c ∈ circulars) :
    let clauseIds := (s.clausesOf c.1).map (·.1)
    let reviews := s.reviewsIn clauseIds
    let activeRules := (s.rulesIn clauseIds).countP fun r => r.2.isActive
    Query.dict (getCircularStatusesBatch s circulars) c.1 = some
      { status := legacyStatus c.2.processingState (reviews.any isRejected)
          (reviews.countP isPending) activeRules (reviews.countP isResolved)
        clauseCount := (s.clausesOf c.1).length
        activeRules := activeRules
        pendingReviews := reviews.countP isPending } := by
  have hmem : c.1 ∈ circulars.map (·.1) := List.mem_map.2 ⟨c, hc, rfl⟩
  refine Query.dict_eq_some (List.mem_map.2 ⟨c, hc, ?_⟩) fun p hp hpc => ?_
  · simp only [activeRules_batch hmem, reviews_batch hmem, clauseCount_batch hmem,
      rejected_iff_any]
  · obtain ⟨c', hc', rfl⟩ := List.mem_map.1 hp
    -- a circular that is asked for twice is the same row
    have hrow : c'.2 = c.2 := by
      have hget := hrows c' hc'
      rw [hpc, hrows c hc] at hget
      exact (Option.some.inj hget).symm
    obtain rfl : c' = c := Prod.ext hpc hrow
    simp only [activeRules_batch hmem, reviews_batch hmem, clauseCount_batch hmem,
      rejected_iff_any]

end

/-- **The batch agrees with the single status** on every circular that is asked for. -/
theorem batch_status_agrees (s : Store) (circulars : List (Nat × Circular))
    (hrows : ∀ c ∈ circulars, s.circulars.get? c.1 = some c.2) (c : Nat × Circular)
    (hc : c ∈ circulars) :
    ∃ b r, Query.dict (getCircularStatusesBatch s circulars) c.1 = some b ∧
      getCircularStatus s c.1 = some r ∧ b.status = r.status ∧ b.clauseCount = r.clauseCount ∧
      b.activeRules = r.activeRules ∧ b.pendingReviews = r.pendingReviews := by
  have hsingle : getCircularStatus s c.1 = _ := congrArg (Option.map _) (hrows c hc)
  refine ⟨_, _, batch_entry hrows hc, hsingle.trans (Option.map_some _ _), ?_⟩
  simp only [rulesIn_of_nil, reviewsIn_of_nil, true_and]

/-- A circular with one clause under review, asked for twice. -/
theorem batch_status_agrees_sample :
    ∃ b r, Query.dict (getCircularStatusesBatch
        (run sampleClauses [.compileAndPersistRules 1 "aa:1" "sebi_baseline"
          (sampleCompilation [sampleFlag "v1" .ambiguousSpan]) []])
        [(1, sampleCircular .awaitingHitl), (1, sampleCircular .awaitingHitl)]) 1 = some b ∧
      getCircularStatus (run sampleClauses [.compileAndPersistRules 1 "aa:1" "sebi_baseline"
          (sampleCompilation [sampleFlag "v1" .ambiguousSpan]) []]) 1 = some r ∧
      b.pendingReviews = r.pendingReviews := by
  obtain ⟨b, r, hb, hr, -, -, -, hpending⟩ := batch_status_agrees
    (run sampleClauses [.compileAndPersistRules 1 "aa:1" "sebi_baseline"
      (sampleCompilation [sampleFlag "v1" .ambiguousSpan]) []])
    [(1, sampleCircular .awaitingHitl), (1, sampleCircular .awaitingHitl)]
    (by simp only [List.forall_mem_cons]; exact ⟨rfl, rfl, by simp⟩)
    (1, sampleCircular .awaitingHitl) List.mem_cons_self
  exact ⟨b, r, hb, hr, hpending⟩

end RegEngine.Hitl
