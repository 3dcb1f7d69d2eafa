import RegEngine.Lib.HashChain
import RegEngine.Ledger.Chain
import RegEngine.Lib.LockProtocol

/-!
# What `verify_chain` decides

The ledger as a hash chain (`view`): `checkRows` finds no break exactly when the selected rows
continue the chain from the anchor (`checkRows_eq_nil_iff`), and `append_entry` builds a chain from
the genesis hash (`chained_ledgerOf`).

* `verifyChain_chained`: on a chain, a window is valid exactly when its rows form one run.
* `verifyChain_honest`: the same for the ledger of any `append_entry` calls, said of the calls.
-/

namespace RegEngine.Ledger

open Lib Lib.Calendar Lib.HashChain

/-- A row as a record of a hash chain. -/
def view : View LedgerRow String where
  seq r := r.sequenceNum
  prev r := r.previousHash
  cur r := r.currentHash
  ok r := computePayloadDigest r.toPayload = r.payloadDigest ∧
    computeBlockHash r.previousHash r.payloadDigest r.sequenceNum r.evaluatedAt = r.currentHash

theorem rowBreaks_eq_nil_iff {ph : String} {ps : Int} {r : LedgerRow} :
    rowBreaks ph ps r = [] ↔ r.sequenceNum = ps + 1 ∧ r.previousHash = ph ∧ view.ok r := by
  simp [rowBreaks, view]

theorem checkRows_eq_nil_iff : ∀ {rows : List LedgerRow} {ph : String} {ps : Int},
    checkRows ph ps rows = [] ↔ Chained view ph (ps + 1) rows
  | [], _, _ => by simp [checkRows, Chained]
  | r :: rows, ph, ps => by
    rw [checkRows, List.append_eq_nil_iff, rowBreaks_eq_nil_iff, checkRows_eq_nil_iff]
    simp only [Chained]
    constructor
    · rintro ⟨⟨hs, hp, hok⟩, ht⟩
      exact ⟨hs, hp, hok, by rw [← hs]; exact ht⟩
    · rintro ⟨hs, hp, hok, ht⟩
      exact ⟨⟨hs, hp, hok⟩, by rw [← hs] at ht; exact ht⟩

/-! ## Appended ledgers -/

/-- Number and hash of the last row of a chain are what `_last_entry` reads. -/
theorem lastEntry_chained {rows : List LedgerRow} (h : Chained view genesisHash 0 rows) :
    lastEntry rows = rows.getLast?.map fun r => (r.sequenceNum, r.currentHash) := by
  rcases List.eq_nil_or_concat' rows with rfl | ⟨A, r, rfl⟩
  · rfl
  have hmax : ∀ s ∈ A, s.sequenceNum < r.sequenceNum := fun s hs =>
    (List.pairwise_append.1 h.pairwise).2.2 s hs r (by simp)
  -- the row with the highest number comes first in the descending order
  have hhead : ((A ++ [r]).insertionSort fun x y => y.sequenceNum ≤ x.sequenceNum).head? =
      some r := by
    cases hsort : (A ++ [r]).insertionSort fun x y => y.sequenceNum ≤ x.sequenceNum with
    | nil =>
      have := (List.perm_insertionSort (fun x y : LedgerRow => y.sequenceNum ≤ x.sequenceNum)
        (A ++ [r])).length_eq
      simp [hsort] at this
    | cons x xs =>
      have hp := List.perm_insertionSort (fun x y : LedgerRow => y.sequenceNum ≤ x.sequenceNum)
        (A ++ [r])
      have hs := List.pairwise_insertionSort
        (fun x y : LedgerRow => y.sequenceNum ≤ x.sequenceNum) (A ++ [r])
      rw [hsort] at hp hs
      have hx : x ∈ A ++ [r] := hp.mem_iff.1 List.mem_cons_self
      have hr : r ∈ x :: xs := hp.mem_iff.2 (by simp)
      rcases List.mem_append.1 hx with hxA | hxr
      · have h1 := hmax x hxA
        rcases List.mem_cons.1 hr with rfl | hr
        · omega
        · have h2 := (List.pairwise_cons.1 hs).1 r hr
          omega
      · simp only [List.mem_singleton] at hxr
        simp [hxr]
  simp [lastEntry, hhead]

theorem ok_nextRow (last : Option (Int × String)) (event : ComplianceEvaluationEvent)
    (stamp : Stamp) : view.ok (nextRow last event stamp) := by
  simp [view, nextRow]

theorem chained_appendEntry {rows : List LedgerRow} (h : Chained view genesisHash 0 rows)
    (event : ComplianceEvaluationEvent) (stamp : Stamp) :
    Chained view genesisHash 0 (appendEntry rows event stamp) := by
  refine chained_concat.2 ⟨h, ?_, ?_, ok_nextRow _ _ _⟩
  · rw [lastEntry_chained h]
    rcases List.eq_nil_or_concat' rows with rfl | ⟨A, r, rfl⟩
    · rfl
    · have := (chained_concat.1 h).2.1
      simp only [view] at this
      simp [view, nextRow, this]
  · rw [lastEntry_chained h]
    rcases List.eq_nil_or_concat' rows with rfl | ⟨A, r, rfl⟩
    · rfl
    · simp [view, nextRow]

/-- **Any sequence of appends builds a chain from the genesis hash.** -/
theorem chained_ledgerOf (calls : List (ComplianceEvaluationEvent × Stamp)) :
    Chained view genesisHash 0 (ledgerOf calls) := by
  induction calls using List.reverseRecOn with
  | nil => trivial
  | append_singleton calls c ih =>
    rw [ledgerOf, List.foldl_concat]
    exact chained_appendEntry ih c.1 c.2

/-- The stored payloads are those of the appended events, in order. -/
theorem ledgerOf_toPayload (calls : List (ComplianceEvaluationEvent × Stamp)) :
    (ledgerOf calls).map (·.toPayload) = calls.map (·.1.toPayload) := by
  induction calls using List.reverseRecOn with
  | nil => rfl
  | append_singleton calls c ih =>
    rw [ledgerOf, List.foldl_concat, ← ledgerOf]
    simp [appendEntry, nextRow, ih]

theorem ledgerOf_getElem? {calls : List (ComplianceEvaluationEvent × Stamp)} {k : Nat}
    {c : ComplianceEvaluationEvent × Stamp} (h : calls[k]? = some c) :
    ∃ r, (ledgerOf calls)[k]? = some r ∧ r.toPayload = c.1.toPayload := by
  have hmap : ((ledgerOf calls).map (·.toPayload))[k]? = some c.1.toPayload := by
    rw [ledgerOf_toPayload, List.getElem?_map, h]
    rfl
  rwa [List.getElem?_map, Option.map_eq_some_iff] at hmap

/-! ## Selection and anchor -/

/-- The rows of a window of a ledger stored in order of `sequence_num`. -/
theorem selectRows_of_pairwise {rows : List LedgerRow}
    (h : rows.Pairwise fun r s => r.sequenceNum < s.sequenceNum) (startTime endTime : Option DateTime) :
    selectRows rows startTime endTime =
      rows.filter fun r => inWindow startTime endTime r.evaluatedAt :=
  List.Pairwise.insertionSort_eq ((h.imp fun hlt => Int.le_of_lt hlt).sublist List.filter_sublist)

theorem find_seq {rows : List LedgerRow} {a : LedgerRow}
    (h : rows.Pairwise fun r s => r.sequenceNum < s.sequenceNum) (ha : a ∈ rows) :
    rows.find? (fun r => r.sequenceNum = a.sequenceNum) = some a := by
  obtain ⟨A, B, rfl⟩ := List.append_of_mem ha
  rw [List.find?_append, List.find?_eq_none.2]
  · simp
  · intro r hr
    have := (List.pairwise_append.1 h).2.2 r hr a List.mem_cons_self
    simp only [decide_eq_true_eq]
    omega

theorem anchorHash_missing {rows : List LedgerRow} {k : Int} (hk : 0 < k)
    (h : ∀ r ∈ rows, r.sequenceNum ≠ k - 1) : anchorHash rows k = none := by
  rw [anchorHash, if_pos hk, List.find?_eq_none.2]
  · rfl
  · intro r hr
    simpa using h r hr

/-- The anchor of row `b` of a chain, looked up in any table that holds the rows before it. -/
theorem anchorHash_chained {A B T : List LedgerRow} {b : LedgerRow}
    (h : Chained view genesisHash 0 (A ++ b :: B))
    (hT : T.Pairwise fun r s => r.sequenceNum < s.sequenceNum) (hA : ∀ r ∈ A, r ∈ T) :
    anchorHash T b.sequenceNum = some (lastHash view genesisHash A) := by
  obtain ⟨hcA, hseq, -, -, -⟩ := chained_append.1 h
  simp only [view] at hseq
  rcases List.eq_nil_or_concat' A with rfl | ⟨A, a, rfl⟩
  · simp [anchorHash, hseq]
  · have ha : a.sequenceNum = b.sequenceNum - 1 := by
      have := (chained_concat.1 hcA).2.1
      simp only [view] at this
      simp only [List.length_append, List.length_singleton] at hseq
      omega
    have hpos : 0 < b.sequenceNum := by
      simp only [List.length_append, List.length_singleton] at hseq
      omega
    rw [anchorHash, if_pos hpos, ← ha, find_seq hT (hA a (by simp)), lastHash_concat]
    rfl

/-! ## Windows -/

theorem length_selectRows_all (rows : List LedgerRow) :
    (selectRows rows none none).length = rows.length := by
  rw [selectRows, List.length_insertionSort]
  simp [inWindow]

theorem verifyChain_valid_iff_breaks (rows : List LedgerRow) (startTime endTime : Option DateTime) :
    (verifyChain rows startTime endTime).valid = true ↔
      (verifyChain rows startTime endTime).breaks = [] := by
  unfold verifyChain
  split
  · simp
  · simp only
    split <;> simp

theorem verifyChain_entriesChecked (rows : List LedgerRow) (startTime endTime : Option DateTime) :
    (verifyChain rows startTime endTime).entriesChecked =
      (selectRows rows startTime endTime).length := by
  unfold verifyChain
  split
  · rename_i h
    simp [h]
  · rename_i h
    simp only [h]
    split <;> rfl

theorem verifyChain_valid_iff (rows : List LedgerRow) (startTime endTime : Option DateTime) :
    (verifyChain rows startTime endTime).valid = true ↔
      ∀ first rest, selectRows rows startTime endTime = first :: rest →
        ∃ anchor, anchorHash rows first.sequenceNum = some anchor ∧
          Chained view anchor first.sequenceNum (first :: rest) := by
  unfold verifyChain
  split
  · rename_i h
    simp [h]
  · rename_i f r h
    simp only [h, List.cons.injEq]
    split
    · rename_i ha
      constructor
      · simp
      · intro hall
        obtain ⟨anchor, h1, -⟩ := hall f r ⟨rfl, rfl⟩
        simp [ha] at h1
    · rename_i anchor ha
      simp only [List.isEmpty_iff, checkRows_eq_nil_iff, Int.sub_add_cancel]
      constructor
      · rintro hc _ _ ⟨rfl, rfl⟩
        exact ⟨anchor, ha, hc⟩
      · intro hall
        obtain ⟨anchor', h1, h2⟩ := hall f r ⟨rfl, rfl⟩
        rw [ha] at h1
        exact Option.some.inj h1 ▸ h2

/-- A table `T` whose window is that of a chain `P` it holds: the window is valid exactly when its
rows form one run of `P`. -/
theorem verifyChain_valid_iff_contiguous {P T : List LedgerRow} {startTime endTime : Option DateTime}
    (h : Chained view genesisHash 0 P)
    (hT : T.Pairwise fun r s => r.sequenceNum < s.sequenceNum) (hPT : ∀ r ∈ P, r ∈ T)
    (hsel : selectRows T startTime endTime =
      P.filter fun r => inWindow startTime endTime r.evaluatedAt) :
    (verifyChain T startTime endTime).valid = true ↔
      Contiguous (fun r => inWindow startTime endTime r.evaluatedAt) P := by
  rw [verifyChain_valid_iff, hsel]
  cases hf : P.filter fun r => inWindow startTime endTime r.evaluatedAt with
  | nil =>
    refine iff_of_true (by simp) fun i j k _ _ x y z hx _ _ hwx _ => ?_
    have hmem : x ∈ P.filter fun r => inWindow startTime endTime r.evaluatedAt :=
      List.mem_filter.2 ⟨List.mem_of_getElem? hx, hwx⟩
    simp [hf] at hmem
  | cons b rest =>
    obtain ⟨A, B, rfl, hA, hb, rfl⟩ := List.filter_eq_cons_iff.1 hf
    have hcb := (chained_append.1 h).2
    have hseq : b.sequenceNum = 0 + (A.length : Int) := hcb.1
    have hanchor := anchorHash_chained h hT fun r hr => hPT r (by simp [hr])
    have hcons : b :: B.filter (fun r => inWindow startTime endTime r.evaluatedAt) =
        (b :: B).filter fun r => inWindow startTime endTime r.evaluatedAt := by
      simp [hb]
    rw [contiguous_iff_initial (w := fun r : LedgerRow => inWindow startTime endTime r.evaluatedAt)
      (fun a ha => by simpa using hA a ha) hb, ← hcons]
    constructor
    · intro hall
      obtain ⟨anchor, h1, h2⟩ := hall _ _ rfl
      rw [hanchor] at h1
      obtain rfl := Option.some.inj h1
      rw [hseq] at h2
      exact hcb.sublist_initial (hcons ▸ List.filter_sublist) h2
    · intro hpre first rest heq
      obtain ⟨rfl, rfl⟩ := List.cons.inj heq
      refine ⟨_, hanchor, ?_⟩
      rw [hseq]
      exact hcb.of_initial hpre

/-- **On a chain, a window is valid exactly when its rows form one run.** -/
theorem verifyChain_chained {rows : List LedgerRow} (h : Chained view genesisHash 0 rows)
    (startTime endTime : Option DateTime) :
    (verifyChain rows startTime endTime).valid = true ↔
      Contiguous (fun r => inWindow startTime endTime r.evaluatedAt) rows :=
  verifyChain_valid_iff_contiguous h h.pairwise (fun _ hr => hr)
    (selectRows_of_pairwise h.pairwise _ _)

/-- A chain verifies without bounds. -/
theorem verifyChain_all {rows : List LedgerRow} (h : Chained view genesisHash 0 rows) :
    (verifyChain rows none none).valid = true :=
  (verifyChain_chained h none none).2 fun _ _ _ _ _ _ _ _ _ _ _ _ _ => rfl

/-- A row is in the window exactly when the event it stores is. -/
theorem contiguous_ledgerOf (calls : List (ComplianceEvaluationEvent × Stamp))
    (startTime endTime : Option DateTime) :
    Contiguous (fun r => inWindow startTime endTime r.evaluatedAt) (ledgerOf calls) ↔
      Contiguous (fun c => inWindow startTime endTime c.1.evaluatedAt) calls := by
  rw [← contiguous_map (f := fun r : LedgerRow => r.toPayload)
    (w := fun p => inWindow startTime endTime p.evaluatedAt), ledgerOf_toPayload, contiguous_map]

/-- **The ledger of any appends verifies over a window exactly when the events in the window were
appended in one run.** -/
theorem verifyChain_honest (calls : List (ComplianceEvaluationEvent × Stamp))
    (startTime endTime : Option DateTime) :
    ((verifyChain (ledgerOf calls) startTime endTime).valid = true ∧
      (verifyChain (ledgerOf calls) startTime endTime).breaks = []) ↔
      Contiguous (fun c => inWindow startTime endTime c.1.evaluatedAt) calls := by
  rw [← verifyChain_valid_iff_breaks, and_self, verifyChain_chained (chained_ledgerOf calls),
    contiguous_ledgerOf]

/-- A moment of the first hour of 2024. -/
def minute (m : Fin 60) : DateTime :=
  DateTime.ofInstant (738885 * dayMicros + m * 60000000)
    (by have := m.isLt; unfold dayMicros maxMicros dayMicros; omega)

/-- A passing evaluation at a given moment. -/
def passAt (t : DateTime) : ComplianceEvaluationEvent where
  brokerId := "BRK-1"
  transactionId := "TXN-1"
  evaluatedAt := t
  circularId := "CIRC-1"
  clauseHash := "c0ffee"
  sectionReference := "3.1"
  ruleId := "RULE-1"
  evaluationResult := .pass
  hitlReviewId := none
  details := .obj []
  hitlReviewIdConsistency := by decide

/-- Three evaluations appended out of time order: the window skips the second. -/
theorem verifyChain_outOfOrder :
    ¬ ((verifyChain (ledgerOf [(passAt (minute 0), ⟨1, minute 0⟩),
        (passAt (minute 10), ⟨2, minute 10⟩), (passAt (minute 1), ⟨3, minute 11⟩)])
        (some (minute 0)) (some (minute 5))).valid = true) := by
  rw [verifyChain_chained (chained_ledgerOf _), contiguous_ledgerOf]
  intro h
  have := h 0 1 2 (by decide) (by decide) _ _ _ rfl rfl rfl (by decide) (by decide)
  exact absurd this (by decide)

end RegEngine.Ledger

/-!
## Concurrent appends

`LedgerService._append_entry` as a transaction of `Lib.LockProtocol`: `_acquire_ledger_lock`,
`_last_entry`, the insertion of the computed row, commit. The lock is `pg_advisory_xact_lock`,
released at commit and rollback; `_last_entry` reads the committed rows.

* `concurrent_appends`: in every interleaving, with any aborts, the committed rows are one chain.
-/

namespace RegEngine.Ledger

open Lib.HashChain Lib.LockProtocol

variable {ι : Type}

/-- `_append_entry` of writer `w` appends `event w`; the database stamps the inserted row. -/
def appendProtocol (event : ι → ComplianceEvaluationEvent) :
    Protocol ι (List LedgerRow) (Option (Int × String)) Stamp LedgerRow where
  read := lastEntry
  compute w stamp last := nextRow last (event w) stamp
  insert row rows := rows ++ [row]

/-- Writers that run one after another leave the ledger of their calls. -/
theorem sequential_appendProtocol (event : ι → ComplianceEvaluationEvent)
    (history : List (ι × Stamp)) :
    sequential (appendProtocol event) [] history =
      ledgerOf (history.map fun c => (event c.1, c.2)) := by
  simp [sequential, ledgerOf, List.foldl_map, appendEntry, appendProtocol]

/-- **Concurrent appends form one linear chain**: numbers `0..n-1`, each row linked to the one
before it, each committed event once, and the whole ledger verifies. -/
theorem concurrent_appends [DecidableEq ι] (event : ι → ComplianceEvaluationEvent)
    (s : State ι (List LedgerRow) (Option (Int × String)) LedgerRow)
    (h : Reachable (appendProtocol event) [] s) :
    (∀ (k : Nat) (r : LedgerRow), s.table[k]? = some r → r.sequenceNum = k) ∧
    (∀ r : LedgerRow, s.table[0]? = some r → r.previousHash = genesisHash) ∧
    (∀ (k : Nat) (r r' : LedgerRow), s.table[k]? = some r → s.table[k + 1]? = some r' →
      r'.previousHash = r.currentHash) ∧
    (∃ ws : List ι, ws.Nodup ∧ (∀ w, w ∈ ws ↔ s.phase w = .committed) ∧
      s.table.map (·.toPayload) = ws.map fun w => (event w).toPayload) ∧
    (verifyChain s.table none none).valid = true ∧
    (verifyChain s.table none none).entriesChecked = s.table.length := by
  obtain ⟨history, hnd, hmem, htable⟩ := serial_of_reachable h
  rw [sequential_appendProtocol] at htable
  have hchain : Chained view genesisHash 0 s.table := htable ▸ chained_ledgerOf _
  refine ⟨fun k r hr => ?_, fun r hr => ?_, fun k r r' hr hr' => ?_, ?_, verifyChain_all hchain, ?_⟩
  · have := hchain.seq_getElem hr
    simpa [view] using this
  · have := hchain.prev_getElem hr
    simpa [view] using this
  · have hprev := hchain.prev_getElem hr'
    rw [List.take_add_one, hr] at hprev
    simpa [view] using hprev
  · refine ⟨history.map (·.1), hnd, hmem, ?_⟩
    rw [htable, ledgerOf_toPayload]
    simp
  · rw [verifyChain_entriesChecked, length_selectRows_all]

/-- Writer 0 rolls back after its read, writers 2 and 1 then append. -/
theorem concurrent_appends_abort :
    ∃ s : State (Fin 3) (List LedgerRow) (Option (Int × String)) LedgerRow,
      s.phase 0 = .aborted ∧ s.phase 1 = .committed ∧ s.phase 2 = .committed ∧
      s.table.length = 2 ∧ (verifyChain s.table none none).valid = true ∧
      (verifyChain s.table none none).entriesChecked = s.table.length := by
  have hrun : Reachable (appendProtocol fun _ : Fin 3 => passAt (minute 0)) [] _ :=
    (((((((((((Relation.ReflTransGen.refl.tail (.acquire 0 rfl rfl)).tail (.read 0 rfl)).tail
      (.abort 0 (.inr trivial))).tail (.acquire 2 rfl rfl)).tail (.read 2 rfl)).tail
      (.insert 2 ⟨1, minute 0⟩ rfl)).tail (.commit 2 rfl)).tail (.acquire 1 rfl rfl)).tail
      (.read 1 rfl)).tail (.insert 1 ⟨2, minute 1⟩ rfl)).tail (.commit 1 rfl))
  exact ⟨_, rfl, rfl, rfl, rfl, (concurrent_appends _ _ hrun).2.2.2.2⟩

end RegEngine.Ledger
