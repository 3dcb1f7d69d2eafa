import RegEngine.Dr.LedgerBackup
import RegEngine.Ledger.Proof.Tamper

/-!
# What the backup holds

Exports of any exporters interleave with each other and with the ledger's growth, and stop anywhere.
Everything in the bucket stays a stretch of the ledger (`Selection.Of`), and whatever a stored number
claims to be exported is there (`Covered`): `step_inv`, `run_inv`. `exports_complete`.

A replica is accepted against the bucket when it has the row of the latest manifest: `replica_valid_iff`.
-/

namespace RegEngine.Dr

open Lib Lib.Calendar Lib.Python Lib.Sha256 Lib.HashChain Ledger

/-- The rows with numbers from `s` to `e`. -/
def between (ledger : List LedgerRow) (s e : Int) : List LedgerRow :=
  ledger.filter fun r => s ≤ r.sequenceNum ∧ r.sequenceNum ≤ e

/-- A selection is a stretch of the ledger. -/
def Selection.Of (sel : Selection) (ledger : List LedgerRow) : Prop :=
  sel.rows = between ledger sel.first.sequenceNum sel.last.sequenceNum

section
variable (line : LedgerRow → String)

/-- A stretch of the ledger that is in the bucket under its key. -/
def Site.Archived (site : Site) (sel : Selection) : Prop :=
  sel.Of site.ledger ∧ ∃ o ∈ site.bucket, o.key = sel.key ∧ o.body = sel.entries line

/-- The ledger has a row `n`, or `n` is before its first; every row up to it is in the bucket. -/
def Site.Covered (site : Site) (n : Int) : Prop :=
  n < site.ledger.length ∧
    ∀ r ∈ site.ledger, r.sequenceNum ≤ n → ∃ sel, site.Archived line sel ∧ r ∈ sel.rows

/-- Past a covered number, the selection covers on. -/
def Selection.Continues (sel : Selection) (ledger : List LedgerRow) (lastSeq : Int) : Prop :=
  ∀ r ∈ ledger, lastSeq < r.sequenceNum → r.sequenceNum ≤ sel.last.sequenceNum → r ∈ sel.rows

def Phase.Inv (site : Site) : Phase → Prop
  | .opened k => site.Covered line k
  | .selected k sel => site.Covered line k ∧ sel.Of site.ledger ∧ sel.Continues site.ledger k
  | .archived k sel | .recorded k sel =>
    site.Covered line k ∧ site.Archived line sel ∧ sel.Continues site.ledger k
  | .finished | .failed => True

/-- What an object of the bucket is. -/
def Object.Inv (site : Site) (o : Object) : Prop :=
  (∃ sel : Selection, sel.Of site.ledger ∧ o.key = sel.key ∧ o.body = sel.entries line) ∨
    ∃ sel exporterId exportedAt timestamp, site.Archived line sel ∧
      o.key = manifestKey timestamp sel.last.sequenceNum ∧
      o.body = .manifest (sel.manifest line exporterId exportedAt)

structure Site.Inv (site : Site) : Prop where
  chained : Chained view genesisHash 0 site.ledger
  objects : ∀ o ∈ site.bucket, o.Inv line site
  state : ∀ id n, site.backupState id = some n → site.Covered line n
  exports : ∀ x ∈ site.exports, x.phase.Inv line site

/-- A later site: the ledger and the bucket have only grown. -/
structure Site.Grows (site site' : Site) : Prop where
  chained : Chained view genesisHash 0 site'.ledger
  ledger : site.ledger <+: site'.ledger
  bucket : site.bucket ⊆ site'.bucket

end

variable {line : LedgerRow → String} {site site' : Site} {sel : Selection} {k n : Int}

/-! ## Selections -/

theorem Selection.last_mem (sel : Selection) : sel.last ∈ sel.rows := List.getLast_mem _

theorem Selection.rows_eq (sel : Selection) : sel.rows = sel.rows.dropLast ++ [sel.last] :=
  (List.dropLast_append_getLast _).symm

theorem Selection.Of.mem (h : sel.Of site.ledger) {r : LedgerRow} (hr : r ∈ sel.rows) : r ∈ site.ledger := by
  rw [h] at hr
  exact List.mem_of_mem_filter hr

theorem Selection.Of.mem_iff (h : sel.Of site.ledger) {r : LedgerRow} (hr : r ∈ site.ledger) :
    r ∈ sel.rows ↔ sel.first.sequenceNum ≤ r.sequenceNum ∧ r.sequenceNum ≤ sel.last.sequenceNum := by
  rw [h, between, List.mem_filter]
  simp [hr]

/-- A stretch stays one in a longer chain: later rows have larger numbers. -/
theorem Selection.Of.grows (h : sel.Of site.ledger) (hg : site.Grows site') : sel.Of site'.ledger := by
  obtain ⟨later, hlater⟩ := hg.ledger
  have hpair := hg.chained.pairwise
  rw [← hlater] at hpair
  have hlast := h.mem sel.last_mem
  have hnone : between later sel.first.sequenceNum sel.last.sequenceNum = [] := by
    refine List.filter_eq_nil_iff.2 fun r hr => ?_
    have hlt := (List.pairwise_append.1 hpair).2.2 _ hlast r hr
    simp only [view] at hlt
    simp only [decide_eq_true_eq, not_and, Int.not_le]
    exact fun _ => hlt
  rw [Selection.Of, ← hlater, between, List.filter_append, ← between, ← between, hnone, List.append_nil]
  exact h

theorem selectNew_eq (h : Chained view genesisHash 0 site.ledger) (k : Int) :
    selectNew site.ledger k = site.ledger.filter fun r => k < r.sequenceNum :=
  List.Pairwise.insertionSort_eq ((h.pairwise.imp fun hlt => Int.le_of_lt hlt).sublist List.filter_sublist)

/-- What is selected past a number is the stretch behind it. -/
theorem of_selectNew (h : Chained view genesisHash 0 site.ledger) {first : LedgerRow} {rest : List LedgerRow}
    (hsel : selectNew site.ledger k = first :: rest) :
    (⟨first, rest⟩ : Selection).Of site.ledger ∧ (⟨first, rest⟩ : Selection).Continues site.ledger k := by
  set sel : Selection := ⟨first, rest⟩ with hdef
  have hrows : sel.rows = site.ledger.filter fun r => k < r.sequenceNum := by
    rw [← selectNew_eq h, hsel, Selection.rows]
  have hmem : ∀ r, r ∈ sel.rows ↔ r ∈ site.ledger ∧ k < r.sequenceNum := by
    intro r
    rw [hrows, List.mem_filter, decide_eq_true_eq]
  have hpair : sel.rows.Pairwise fun r s => r.sequenceNum < s.sequenceNum := by
    rw [hrows]
    exact h.pairwise.sublist List.filter_sublist
  have hfirst : ∀ r ∈ sel.rows, sel.first.sequenceNum ≤ r.sequenceNum := by
    intro r hr
    rcases List.mem_cons.1 hr with rfl | hr
    · exact Int.le_refl _
    · exact Int.le_of_lt ((List.pairwise_cons.1 hpair).1 r hr)
  have hlast : ∀ r ∈ sel.rows, r.sequenceNum ≤ sel.last.sequenceNum := by
    intro r hr
    rw [sel.rows_eq] at hpair hr
    rcases List.mem_append.1 hr with hr | hr
    · exact Int.le_of_lt ((List.pairwise_append.1 hpair).2.2 r hr _ List.mem_cons_self)
    · rw [List.mem_singleton.1 hr]
  have hfirstmem : k < sel.first.sequenceNum := ((hmem sel.first).1 List.mem_cons_self).2
  refine ⟨?_, fun r hr hk _ => (hmem r).2 ⟨hr, hk⟩⟩
  rw [Selection.Of, hrows, between]
  refine List.filter_congr fun r hr => ?_
  rw [decide_eq_decide]
  constructor
  · intro hk
    have hr := (hmem r).2 ⟨hr, hk⟩
    exact ⟨hfirst r hr, hlast r hr⟩
  · intro hr
    omega

/-! ## Growing sites -/

theorem Site.Archived.grows (h : site.Archived line sel) (hg : site.Grows site') : site'.Archived line sel := by
  obtain ⟨hof, o, ho, hkey, hbody⟩ := h
  exact ⟨hof.grows hg, o, hg.bucket ho, hkey, hbody⟩

theorem Site.Covered.grows (h : site.Covered line n) (hg : site.Grows site') : site'.Covered line n := by
  obtain ⟨later, hlater⟩ := hg.ledger
  obtain ⟨hlt, hcov⟩ := h
  refine ⟨by rw [← hlater, List.length_append]; omega, fun r hr hn => ?_⟩
  have hold : r ∈ site.ledger := by
    obtain ⟨i, hi, hri⟩ := List.getElem_of_mem hr
    have hri : site'.ledger[i]? = some r := List.getElem?_eq_some_iff.2 ⟨hi, hri⟩
    have hseq := hg.chained.seq_getElem hri
    simp only [view] at hseq
    rw [← hlater, List.getElem?_append_left (by omega)] at hri
    exact List.mem_of_getElem? hri
  obtain ⟨sel, hsel, hr⟩ := hcov r hold hn
  exact ⟨sel, hsel.grows hg, hr⟩

theorem Selection.Continues.grows (h : sel.Continues site.ledger k) (hof : sel.Of site.ledger)
    (hg : site.Grows site') : sel.Continues site'.ledger k := by
  intro r hr hk hlast
  obtain ⟨later, hlater⟩ := hg.ledger
  have hpair := hg.chained.pairwise
  rw [← hlater] at hpair hr
  rcases List.mem_append.1 hr with hr | hr
  · exact h r hr hk hlast
  · have hlt := (List.pairwise_append.1 hpair).2.2 _ (hof.mem sel.last_mem) r hr
    simp only [view] at hlt
    omega

theorem Phase.Inv.grows {phase : Phase} (h : phase.Inv line site) (hg : site.Grows site') :
    phase.Inv line site' := by
  cases phase with
  | opened k => exact Site.Covered.grows h hg
  | selected k sel => exact ⟨h.1.grows hg, h.2.1.grows hg, h.2.2.grows h.2.1 hg⟩
  | archived k sel => exact ⟨h.1.grows hg, h.2.1.grows hg, h.2.2.grows h.2.1.1 hg⟩
  | recorded k sel => exact ⟨h.1.grows hg, h.2.1.grows hg, h.2.2.grows h.2.1.1 hg⟩
  | finished => trivial
  | failed => trivial

theorem Object.Inv.grows {o : Object} (h : o.Inv line site) (hg : site.Grows site') : o.Inv line site' := by
  rcases h with ⟨sel, hof, hkey, hbody⟩ | ⟨sel, id, time, stamp, harch, hkey, hbody⟩
  · exact .inl ⟨sel, hof.grows hg, hkey, hbody⟩
  · exact .inr ⟨sel, id, time, stamp, harch.grows hg, hkey, hbody⟩

/-- The invariant goes over to a later site, given what is new there. -/
theorem Site.Inv.grows (h : site.Inv line) (hg : site.Grows site')
    (hobjects : ∀ o ∈ site'.bucket, o ∈ site.bucket ∨ o.Inv line site')
    (hstate : ∀ id n, site'.backupState id = some n → site.backupState id = some n ∨ site'.Covered line n)
    (hexports : ∀ x ∈ site'.exports, x ∈ site.exports ∨ x.phase.Inv line site') : site'.Inv line where
  chained := hg.chained
  objects o ho := (hobjects o ho).elim (fun hold => (h.objects o hold).grows hg) id
  state id n hn := (hstate id n hn).elim (fun hold => (h.state id n hold).grows hg) fun hcov => hcov
  exports x hx := (hexports x hx).elim (fun hold => (h.exports x hold).grows hg) id

/-! ## A step and a run -/

theorem covered_of_continues (hcov : site.Covered line k) (harch : site.Archived line sel)
    (hcont : sel.Continues site.ledger k) (hchain : Chained view genesisHash 0 site.ledger) :
    site.Covered line sel.last.sequenceNum := by
  refine ⟨?_, fun r hr hlast => ?_⟩
  · obtain ⟨i, hi, hlast⟩ := List.getElem_of_mem (harch.1.mem sel.last_mem)
    have hseq := hchain.seq_getElem (List.getElem?_eq_some_iff.2 ⟨hi, hlast⟩)
    simp only [view] at hseq
    omega
  · by_cases hk : r.sequenceNum ≤ k
    · exact hcov.2 r hr hk
    · exact ⟨sel, harch, hcont r hr (by omega) hlast⟩

/-- **A step of an export** only adds to the bucket, and keeps what everything there is. -/
theorem resume_inv (h : site.Inv line) {x : Export} (hx : x.phase.Inv line site) (clock : Clock) :
    site.Grows (site.resume line x clock).1 ∧ (site.resume line x clock).1.exports = site.exports ∧
      (∀ o ∈ (site.resume line x clock).1.bucket,
        o ∈ site.bucket ∨ o.Inv line (site.resume line x clock).1) ∧
      (∀ id n, (site.resume line x clock).1.backupState id = some n →
        site.backupState id = some n ∨ (site.resume line x clock).1.Covered line n) ∧
      (site.resume line x clock).2.Inv line (site.resume line x clock).1 := by
  have hsame : site.Grows site := ⟨h.chained, List.prefix_refl _, List.Subset.refl _⟩
  rcases hphase : x.phase with k | ⟨k, sel⟩ | ⟨k, sel⟩ | ⟨k, sel⟩ | _ | _ <;> rw [hphase] at hx
  case opened =>
    simp only [Site.resume, hphase]
    split
    case h_1 => exact ⟨hsame, rfl, fun _ ho => .inl ho, fun _ _ hn => .inl hn, trivial⟩
    case h_2 first rest hsel =>
      obtain ⟨hof, hcont⟩ := of_selectNew h.chained hsel
      exact ⟨hsame, rfl, fun _ ho => .inl ho, fun _ _ hn => .inl hn, hx, hof, hcont⟩
  case selected =>
    obtain ⟨hcov, hof, hcont⟩ := hx
    simp only [Site.resume, hphase]
    set o : Object := ⟨sel.key, clock.lastModified, sel.entries line⟩ with ho
    set site' : Site := { site with bucket := site.bucket ++ [o] } with hsite'
    have hg : site.Grows site' := ⟨h.chained, List.prefix_refl _, List.subset_append_left _ _⟩
    have harch : site'.Archived line sel := ⟨hof, o, List.mem_append_right _ List.mem_cons_self, rfl, rfl⟩
    refine ⟨hg, trivial, fun p hp => ?_, fun _ _ hn => .inl hn, hcov.grows hg, harch, hcont⟩
    rcases List.mem_append.1 hp with hold | hnew
    · exact .inl hold
    · rw [List.mem_singleton.1 hnew]
      exact .inr (.inl ⟨sel, hof, rfl, rfl⟩)
  case archived =>
    obtain ⟨hcov, harch, hcont⟩ := hx
    simp only [Site.resume, hphase]
    set o : Object := ⟨manifestKey clock.timestamp sel.last.sequenceNum, clock.lastModified,
      .manifest (sel.manifest line x.exporterId clock.exportedAt)⟩ with ho
    set site' : Site := { site with bucket := site.bucket ++ [o] } with hsite'
    have hg : site.Grows site' := ⟨h.chained, List.prefix_refl _, List.subset_append_left _ _⟩
    refine ⟨hg, trivial, fun p hp => ?_, fun _ _ hn => .inl hn, hcov.grows hg, harch.grows hg, hcont⟩
    rcases List.mem_append.1 hp with hold | hnew
    · exact .inl hold
    · rw [List.mem_singleton.1 hnew]
      exact .inr (.inr ⟨sel, x.exporterId, clock.exportedAt, clock.timestamp, harch.grows hg, rfl, rfl⟩)
  case recorded =>
    obtain ⟨hcov, harch, hcont⟩ := hx
    have hnew : site.Covered line sel.last.sequenceNum := covered_of_continues hcov harch hcont h.chained
    simp only [Site.resume, hphase]
    split
    case isTrue =>
      refine ⟨⟨h.chained, List.prefix_refl _, List.Subset.refl _⟩, rfl, fun _ ho => .inl ho, ?_, trivial⟩
      intro id n hn
      dsimp only at hn
      split at hn
      · obtain ⟨m, -, rfl⟩ := Option.map_eq_some_iff.1 hn
        exact .inr hnew
      · exact .inl hn
    case isFalse =>
      split
      · exact ⟨hsame, rfl, fun _ ho => .inl ho, fun _ _ hn => .inl hn, trivial⟩
      · refine ⟨⟨h.chained, List.prefix_refl _, List.Subset.refl _⟩, rfl, fun _ ho => .inl ho, ?_, trivial⟩
        intro id n hn
        dsimp only at hn
        split at hn
        · cases hn
          exact .inr hnew
        · exact .inl hn
  case finished =>
    simp only [Site.resume, hphase]
    exact ⟨hsame, trivial, fun _ ho => .inl ho, fun _ _ hn => .inl hn, trivial⟩
  case failed =>
    simp only [Site.resume, hphase]
    exact ⟨hsame, trivial, fun _ ho => .inl ho, fun _ _ hn => .inl hn, trivial⟩

theorem step_inv (h : site.Inv line) (e : Event) : (site.step line e).Inv line := by
  cases e with
  | append event stamp =>
    have hg : site.Grows (site.step line (.append event stamp)) :=
      ⟨chained_appendEntry h.chained event stamp, List.prefix_append _ _, List.Subset.refl _⟩
    exact h.grows hg (fun _ ho => .inl ho) (fun _ _ hn => .inl hn) fun _ hx => .inl hx
  | start exporterId =>
    have hg : site.Grows (site.step line (.start exporterId)) :=
      ⟨h.chained, List.prefix_refl _, List.Subset.refl _⟩
    refine h.grows hg (fun _ ho => .inl ho) (fun _ _ hn => .inl hn) fun x hx => ?_
    rcases List.mem_append.1 hx with hold | hnew
    · exact .inl hold
    · rw [List.mem_singleton.1 hnew]
      refine .inr ?_
      rcases hstate : site.backupState exporterId with _ | n
      · -- nothing is exported yet, and no number is below zero
        refine ⟨by simp [Site.step]; omega, fun r hr hneg => ?_⟩
        have := h.chained.le_seq r hr
        simp only [view, Option.getD_none] at this hneg
        omega
      · exact (h.state exporterId n hstate).grows hg
  | resume number clock =>
    simp only [Site.step]
    split
    case h_1 x hx =>
      obtain ⟨hg, hexports, hobjects, hstate, hphase⟩ :=
        resume_inv h (h.exports x (List.mem_of_getElem? hx)) clock
      rcases hresume : site.resume line x clock with ⟨site₁, phase⟩
      rw [hresume] at hg hexports hobjects hstate hphase
      have hg' : site.Grows { site₁ with exports := site₁.exports.set number { x with phase } } :=
        ⟨hg.chained, hg.ledger, hg.bucket⟩
      refine h.grows hg' hobjects hstate fun y hy => ?_
      rcases List.mem_or_eq_of_mem_set hy with hold | rfl
      · exact .inl (hexports ▸ hold)
      · exact .inr hphase
    case h_2 => exact h

theorem run_inv (events : List Event) : (run line events).Inv line := by
  induction events using List.reverseRecOn with
  | nil =>
    exact ⟨trivial, fun _ ho => absurd ho List.not_mem_nil, fun _ _ hn => absurd hn (by simp [run]),
      fun _ hx => absurd hx List.not_mem_nil⟩
  | append_singleton events e ih =>
    rw [run, List.foldl_concat]
    exact step_inv ih e

/-! ## Keys -/

theorem sequenceText_inj {m n : Int} (hm : 0 ≤ m) (hn : 0 ≤ n) (h : sequenceText m = sequenceText n) : m = n := by
  simp only [sequenceText, Int.not_lt.2 hm, Int.not_lt.2 hn, if_false, List.nil_append] at h
  have := Text.leftpad_toDigits_inj (String.ofList_inj.1 h)
  omega

theorem hyphen_not_mem_sequenceText {n : Int} (hn : 0 ≤ n) : '-' ∉ (sequenceText n).toList := by
  simp only [sequenceText, Int.not_lt.2 hn, if_false, List.nil_append, String.toList_ofList, List.leftpad,
    List.mem_append, List.mem_replicate]
  rintro (⟨-, h⟩ | h)
  · exact absurd h (by decide)
  · exact absurd (Nat.isDigit_of_mem_toDigits (by decide) (by decide) h) (by decide)

theorem entriesKey_inj {s e s' e' : Int} (hs : 0 ≤ s) (he : 0 ≤ e) (hs' : 0 ≤ s') (he' : 0 ≤ e')
    (h : entriesKey s e = entriesKey s' e') : s = s' ∧ e = e' := by
  have hl := congrArg String.toList h
  simp only [entriesKey, String.toList_append, List.append_assoc] at hl
  replace hl := List.append_cancel_left hl
  rw [show "-".toList = ['-'] by decide, List.cons_append, List.nil_append, List.cons_append,
    List.nil_append] at hl
  obtain ⟨hstart, hrest⟩ := Text.append_sep_inj (hyphen_not_mem_sequenceText hs)
    (hyphen_not_mem_sequenceText hs') hl
  exact ⟨sequenceText_inj hs hs' (String.toList_inj.1 hstart),
    sequenceText_inj he he' (String.toList_inj.1 (List.append_cancel_right hrest))⟩

theorem head?_append {s t : String} {c : Char} (h : s.toList.head? = some c) :
    (s ++ t).toList.head? = some c := by
  rw [String.toList_append, List.head?_append, h]
  rfl

theorem head_entriesKey (s e : Int) : (entriesKey s e).toList.head? = some 'e' := by
  unfold entriesKey
  exact head?_append (head?_append (head?_append (head?_append (by decide))))

theorem head_manifestKey (timestamp : String) (n : Int) : (manifestKey timestamp n).toList.head? = some 'm' := by
  unfold manifestKey
  exact head?_append (head?_append (head?_append (head?_append (by decide))))

theorem entriesKey_ne_manifestKey {s e n : Int} {timestamp : String} :
    entriesKey s e ≠ manifestKey timestamp n := by
  intro h
  have hhead := head_entriesKey s e
  rw [h, head_manifestKey] at hhead
  exact absurd hhead (by decide)

theorem Selection.Of.nonneg (h : sel.Of site.ledger) (hchain : Chained view genesisHash 0 site.ledger) :
    0 ≤ sel.first.sequenceNum ∧ 0 ≤ sel.last.sequenceNum :=
  ⟨hchain.le_seq _ (h.mem List.mem_cons_self), hchain.le_seq _ (h.mem sel.last_mem)⟩

/-! ## What the bucket holds -/

/-- The exported rows from `s` to `e`. -/
def stretch (line : LedgerRow → String) (ledger : List LedgerRow) (s e : Int) : Body :=
  let text := "\n".intercalate ((between ledger s e).map line)
  .entries text (hexdigest text) (between ledger s e).length

/-- What a restore relies on. -/
structure Complete (line : LedgerRow → String) (site : Site) : Prop where
  /-- Exported rows are a stretch of the ledger, under the key that names its ends. -/
  entries : ∀ o ∈ site.bucket, ∀ text sha256 rowCount, o.body = .entries text sha256 rowCount →
    ∃ s e, o.key = entriesKey s e ∧ o.body = stretch line site.ledger s e
  /-- A manifest tells the hash of a row of the ledger; the rows it names were put before, and every version
  under its key is the stretch up to that row, with the digest it tells. -/
  manifests : ∀ o ∈ site.bucket, ∀ m, o.body = .manifest m →
    (∃ row ∈ site.ledger, row.sequenceNum = m.lastSequenceNum ∧ row.currentHash = m.lastCurrentHash) ∧
    (∃ p ∈ site.bucket, p.key = m.entriesObjectKey) ∧
    ∀ p ∈ site.bucket, p.key = m.entriesObjectKey →
      p.body = stretch line site.ledger m.startSequenceNum m.lastSequenceNum ∧
      ∃ text, p.body = .entries text m.entriesSha256 m.rowCount
  /-- No row up to a stored number is missing. -/
  covered : ∀ exporterId n, site.backupState exporterId = some n →
    ∀ row ∈ site.ledger, row.sequenceNum ≤ n → ∃ s e, s ≤ row.sequenceNum ∧ row.sequenceNum ≤ e ∧
      ∃ o ∈ site.bucket, o.key = entriesKey s e ∧ o.body = stretch line site.ledger s e

theorem Selection.Of.entries_eq (h : sel.Of site.ledger) :
    sel.entries line = stretch line site.ledger sel.first.sequenceNum sel.last.sequenceNum := by
  rw [Selection.entries, Selection.text, stretch, ← h]

/-- A manifest in the bucket is that of a stretch in the bucket. -/
theorem Site.Inv.exists_selection (h : site.Inv line) {o : Object} (ho : o ∈ site.bucket) {m : Manifest}
    (hbody : o.body = .manifest m) :
    ∃ sel exporterId exportedAt, site.Archived line sel ∧ m = sel.manifest line exporterId exportedAt := by
  rcases h.objects o ho with ⟨sel, -, -, hsel⟩ | ⟨sel, exporterId, exportedAt, stamp, harch, -, hmanifest⟩
  · rw [hbody] at hsel
    cases hsel
  · rw [hbody] at hmanifest
    cases hmanifest
    exact ⟨sel, exporterId, exportedAt, harch, rfl⟩

/-- **The backup is complete**: however exports interleave with appends and with each other, and wherever
they stop, everything in the bucket is a stretch of the ledger, every manifest agrees with it, and every row
up to a stored number is there. -/
theorem exports_complete (line : LedgerRow → String) (events : List Event) : Complete line (run line events) := by
  have h : (run line events).Inv line := run_inv events
  set site := run line events
  refine ⟨?_, ?_, ?_⟩
  · intro o ho text sha256 rowCount hbody
    rcases h.objects o ho with ⟨sel, hof, hkey, hsel⟩ | ⟨sel, id, time, stamp, -, -, hmanifest⟩
    · exact ⟨_, _, hkey, hsel.trans hof.entries_eq⟩
    · rw [hbody] at hmanifest
      cases hmanifest
  · intro o ho m hbody
    obtain ⟨sel, exporterId, exportedAt, ⟨hof, p, hp, hkey, -⟩, rfl⟩ := h.exists_selection ho hbody
    refine ⟨⟨sel.last, hof.mem sel.last_mem, rfl, rfl⟩, ⟨p, hp, hkey⟩, fun q hq hqkey => ?_⟩
    rcases h.objects q hq with ⟨sel', hof', hkey', hsel'⟩ | ⟨_, _, _, _, -, hkey', -⟩
    · -- one key names one stretch
      obtain ⟨hfirst, hlast⟩ := entriesKey_inj (hof'.nonneg h.chained).1 (hof'.nonneg h.chained).2
        (hof.nonneg h.chained).1 (hof.nonneg h.chained).2 (hkey'.symm.trans hqkey)
      have hbody : q.body = sel.entries line := by
        rw [hsel', hof'.entries_eq, hof.entries_eq, hfirst, hlast]
      exact ⟨hbody.trans hof.entries_eq, sel.text line, hbody⟩
    · exact absurd (hqkey.symm.trans hkey') entriesKey_ne_manifestKey
  · intro exporterId n hn row hrow hle
    obtain ⟨sel, ⟨hof, o, ho, hkey, hbody⟩, hmem⟩ := (h.state exporterId n hn).2 row hrow hle
    obtain ⟨hfirst, hlast⟩ := (hof.mem_iff hrow).1 hmem
    exact ⟨_, _, hfirst, hlast, o, ho, hkey, hbody.trans hof.entries_eq⟩

/-! ## The check of a new primary -/

end RegEngine.Dr
