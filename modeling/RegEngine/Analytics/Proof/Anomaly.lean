import RegEngine.Analytics.Anomaly

/-!
# What an anomaly is measured against

The window of a z-score holds the bucket itself, so the score is less than the distance from the history in units
of its deviation (`square_zscoreAt_lt`), and a bucket is reported as the history has it just when there is nothing
to report (`measured_iff`).
-/

namespace RegEngine.Analytics

open Lib.Moments

variable {buckets : List PeriodBucket} {brokerId : Option String} {metric : Metric} {idx : Nat} {bucket : PeriodBucket}

/-- The values of the preceding buckets. -/
def preceding (buckets : List PeriodBucket) (metric : Metric) (idx : Nat) : List Rat :=
  (buckets.map metric.value).take idx

/-- The squared distance from the mean of the preceding buckets. -/
def squaredDistance (buckets : List PeriodBucket) (metric : Metric) (idx : Nat) (bucket : PeriodBucket) : Rat :=
  (metric.value bucket - mean (preceding buckets metric idx)) ^ 2

/-- The bucket is flagged by its distance from the preceding ones, with the z-score of that baseline. -/
structure Measured (buckets : List PeriodBucket) (brokerId : Option String) (metric : Metric) (idx : Nat)
    (bucket : PeriodBucket) : Prop where
  high : (∃ e, eventAt buckets brokerId metric idx bucket = some e ∧ e.severity = .high) ↔
    9 * sampleVariance (preceding buckets metric idx) ≤ squaredDistance buckets metric idx bucket
  low : (∃ e, eventAt buckets brokerId metric idx bucket = some e ∧ e.severity = .low) ↔
    4 * sampleVariance (preceding buckets metric idx) ≤ squaredDistance buckets metric idx bucket ∧
      squaredDistance buckets metric idx bucket < 9 * sampleVariance (preceding buckets metric idx)
  score : ∀ e, eventAt buckets brokerId metric idx bucket = some e →
    e.zScore.signedSquare = (ZScore.mk (e.observedValue - e.baselineMean) e.baselineVariance).signedSquare

/-! ## The window -/

theorem take_window (hbucket : buckets[idx]? = some bucket) :
    (buckets.map metric.value).take (idx + 1) = preceding buckets metric idx ++ [metric.value bucket] := by
  unfold preceding
  rw [List.take_add_one, List.getElem?_map, hbucket]
  rfl

theorem length_preceding (metric : Metric) (hbucket : buckets[idx]? = some bucket) :
    (preceding buckets metric idx).length = idx := by
  obtain ⟨hlt, -⟩ := List.getElem?_eq_some_iff.1 hbucket
  unfold preceding
  rw [List.length_take, List.length_map]
  omega

/-- With three values before it and a deviation of theirs, the score is that of the window. -/
theorem zscoreAt_window (hidx : 3 ≤ idx) (hbucket : buckets[idx]? = some bucket)
    (hvar : sampleVariance (preceding buckets metric idx) ≠ 0) :
    zscoreAt (buckets.map metric.value) idx (metric.value bucket) =
      ⟨metric.value bucket - mean (preceding buckets metric idx ++ [metric.value bucket]),
        sampleVariance (preceding buckets metric idx ++ [metric.value bucket])⟩ := by
  have hlength := length_preceding metric hbucket
  have hwindow : ¬ ((preceding buckets metric idx ++ [metric.value bucket]).length < minHistory ∨
      sampleVariance (preceding buckets metric idx ++ [metric.value bucket]) = 0) := by
    rw [List.length_append, hlength, not_or]
    refine ⟨by show ¬ idx + 1 < 3; omega, sampleVariance_concat_ne_zero (fun hnil => ?_) _ hvar⟩
    rw [hnil] at hlength
    rw [← hlength] at hidx
    cases hidx
  unfold zscoreAt
  rw [take_window hbucket]
  exact if_neg hwindow

/-- A bucket scores less than its distance from its own baseline would. -/
theorem square_zscoreAt_lt (hidx : 3 ≤ idx) (hbucket : buckets[idx]? = some bucket)
    (hvar : sampleVariance (preceding buckets metric idx) ≠ 0)
    (hne : metric.value bucket ≠ mean (preceding buckets metric idx)) :
    (zscoreAt (buckets.map metric.value) idx (metric.value bucket)).square <
      squaredDistance buckets metric idx bucket / sampleVariance (preceding buckets metric idx) := by
  rw [zscoreAt_window hidx hbucket hvar]
  have hlength := length_preceding metric hbucket
  exact deviation_concat_lt (by omega) hne hvar

/-- At the mean itself the score is zero. -/
theorem square_zscoreAt_mean (hidx : 3 ≤ idx) (hbucket : buckets[idx]? = some bucket)
    (hvar : sampleVariance (preceding buckets metric idx) ≠ 0)
    (heq : metric.value bucket = mean (preceding buckets metric idx)) :
    (zscoreAt (buckets.map metric.value) idx (metric.value bucket)).square = 0 := by
  have hne : preceding buckets metric idx ≠ [] := by
    intro hnil
    have hlength := length_preceding metric hbucket
    rw [hnil] at hlength
    rw [← hlength] at hidx
    cases hidx
  rw [zscoreAt_window hidx hbucket hvar]
  show (metric.value bucket - mean (preceding buckets metric idx ++ [metric.value bucket])) ^ 2 / _ = 0
  rw [sub_mean_concat hne, heq, sub_self, zero_mul, zero_div, zero_pow two_ne_zero, zero_div]

/-! ## Events -/

theorem classifySeverity_eq_none_iff {z : ZScore} : classifySeverity z = none ↔ z.square < 4 := by
  unfold classifySeverity zHigh zLow
  constructor
  · intro h
    by_contra hge
    have hge := not_lt.1 hge
    by_cases hhigh : (3 : Rat) ^ 2 ≤ z.square
    · rw [if_pos hhigh] at h
      cases h
    · rw [if_neg hhigh, if_pos (by linarith)] at h
      cases h
  · intro h
    rw [if_neg (by linarith), if_neg (by linarith)]

theorem eventAt_eq_none_iff : eventAt buckets brokerId metric idx bucket = none ↔
    (zscoreAt (buckets.map metric.value) idx (metric.value bucket)).square < 4 := by
  unfold eventAt
  rw [Option.map_eq_none_iff, classifySeverity_eq_none_iff]

/-- The baseline of an event is that of the preceding buckets. -/
theorem eventAt_some (hidx : 3 ≤ idx) (hbucket : buckets[idx]? = some bucket) {e : AnomalyEvent}
    (h : eventAt buckets brokerId metric idx bucket = some e) :
    e.observedValue = metric.value bucket ∧ e.baselineMean = mean (preceding buckets metric idx) ∧
      e.baselineVariance = sampleVariance (preceding buckets metric idx) ∧
      e.zScore = zscoreAt (buckets.map metric.value) idx (metric.value bucket) := by
  unfold eventAt at h
  obtain ⟨severity, -, rfl⟩ := Option.map_eq_some_iff.1 h
  have hlength : 1 < ((buckets.map metric.value).take (idx + 1)).length := by
    rw [take_window hbucket, List.length_append, length_preceding metric hbucket]
    omega
  have hhistory : ((buckets.map metric.value).take (idx + 1)).dropLast = preceding buckets metric idx := by
    rw [take_window hbucket, List.dropLast_concat]
  refine ⟨rfl, ?_, ?_, rfl⟩
  · show (if 1 < _ then _ else _) = _
    rw [if_pos hlength, hhistory]
  · show (if 1 < _ then _ else _) = _
    rw [if_pos hlength, hhistory]

theorem abs_signedSquare {z : ZScore} (h : 0 ≤ z.variance) : |z.signedSquare| = z.square := by
  unfold ZScore.signedSquare ZScore.square
  rw [abs_div, abs_mul, abs_abs, abs_of_nonneg h, abs_mul_abs_self, sq]

/-- The z-score of an event is never that of its own baseline. -/
theorem score_ne (hidx : 3 ≤ idx) (hbucket : buckets[idx]? = some bucket)
    (hvar : sampleVariance (preceding buckets metric idx) ≠ 0) {e : AnomalyEvent}
    (h : eventAt buckets brokerId metric idx bucket = some e) :
    e.zScore.signedSquare ≠ (ZScore.mk (e.observedValue - e.baselineMean) e.baselineVariance).signedSquare := by
  intro hsame
  have hlength := length_preceding metric hbucket
  have hpos := sampleVariance_pos (by omega) hvar
  obtain ⟨hobserved, hmean, hbaseline, hz⟩ := eventAt_some hidx hbucket h
  rw [hobserved, hmean, hbaseline, hz] at hsame
  have hfour : ¬ (zscoreAt (buckets.map metric.value) idx (metric.value bucket)).square < 4 := by
    intro hlt
    have hnone : eventAt buckets brokerId metric idx bucket = none := eventAt_eq_none_iff.2 hlt
    rw [h] at hnone
    cases hnone
  have hne : metric.value bucket ≠ mean (preceding buckets metric idx) := by
    intro heq
    rw [square_zscoreAt_mean hidx hbucket hvar heq] at hfour
    exact hfour zero_lt_four
  have hwindow : 0 ≤ (zscoreAt (buckets.map metric.value) idx (metric.value bucket)).variance := by
    rw [zscoreAt_window hidx hbucket hvar]
    exact sampleVariance_nonneg (by simp)
  have hsquare := congrArg abs hsame
  rw [abs_signedSquare hwindow, abs_signedSquare hpos.le] at hsquare
  exact absurd hsquare (square_zscoreAt_lt hidx hbucket hvar hne).ne

/-- With fewer than ten values before it no bucket is flagged high. -/
theorem severity_ne_high (hidx : 3 ≤ idx) (hshort : idx < 10) (hbucket : buckets[idx]? = some bucket)
    (hvar : sampleVariance (preceding buckets metric idx) ≠ 0) {e : AnomalyEvent}
    (h : eventAt buckets brokerId metric idx bucket = some e) : e.severity ≠ .high := by
  have hlength := length_preceding metric hbucket
  have hne : preceding buckets metric idx ≠ [] := by
    intro hnil
    rw [hnil] at hlength
    rw [← hlength] at hidx
    cases hidx
  have hn : ((preceding buckets metric idx).length : Rat) ≤ 9 := by
    rw [hlength]
    exact_mod_cast Nat.le_of_lt_succ hshort
  have hpos : (0 : Rat) < (preceding buckets metric idx).length := by exact_mod_cast List.length_pos_iff.2 hne
  have hbound : ((preceding buckets metric idx).length : Rat) ^ 2 / ((preceding buckets metric idx).length + 1) < 9 := by
    rw [div_lt_iff₀ (by linarith)]
    nlinarith
  have hsquare : (zscoreAt (buckets.map metric.value) idx (metric.value bucket)).square < 9 := by
    rw [zscoreAt_window hidx hbucket hvar]
    exact (deviation_concat_le hne _ hvar).trans_lt hbound
  unfold eventAt at h
  obtain ⟨severity, hseverity, rfl⟩ := Option.map_eq_some_iff.1 h
  intro hhigh
  rw [show severity = .high from hhigh] at hseverity
  unfold classifySeverity zHigh at hseverity
  rw [if_neg (by linarith)] at hseverity
  split at hseverity
  · cases hseverity
  · cases hseverity

/-- **A bucket is measured against its history** just when it is within two deviations of it. -/
theorem measured_iff (hidx : 3 ≤ idx) (hbucket : buckets[idx]? = some bucket)
    (hvar : sampleVariance (preceding buckets metric idx) ≠ 0) :
    Measured buckets brokerId metric idx bucket ↔
      squaredDistance buckets metric idx bucket < 4 * sampleVariance (preceding buckets metric idx) := by
  have hlength := length_preceding metric hbucket
  have hpos := sampleVariance_pos (by omega) hvar
  constructor
  · intro h
    by_contra hge
    have hge := not_lt.1 hge
    have hevent : ∃ e, eventAt buckets brokerId metric idx bucket = some e := by
      by_cases hnine : 9 * sampleVariance (preceding buckets metric idx) ≤ squaredDistance buckets metric idx bucket
      · obtain ⟨e, he, -⟩ := h.high.2 hnine
        exact ⟨e, he⟩
      · obtain ⟨e, he, -⟩ := h.low.2 ⟨hge, not_le.1 hnine⟩
        exact ⟨e, he⟩
    obtain ⟨e, he⟩ := hevent
    exact score_ne hidx hbucket hvar he (h.score e he)
  · intro h
    have hnone : eventAt buckets brokerId metric idx bucket = none := by
      rw [eventAt_eq_none_iff]
      by_cases hne : metric.value bucket = mean (preceding buckets metric idx)
      · rw [square_zscoreAt_mean hidx hbucket hvar hne]
        exact zero_lt_four
      · refine (square_zscoreAt_lt hidx hbucket hvar hne).trans ?_
        rwa [div_lt_iff₀ hpos]
    refine ⟨⟨fun hevent => ?_, fun hnine => absurd h (by linarith)⟩,
      ⟨fun hevent => ?_, fun hfour => absurd h (not_lt.2 hfour.1)⟩, fun e he => ?_⟩
    · obtain ⟨e, he, -⟩ := hevent
      rw [hnone] at he
      cases he
    · obtain ⟨e, he, -⟩ := hevent
      rw [hnone] at he
      cases he
    · rw [hnone] at he
      cases he

/-- Four months of denial rates. -/
def months (last : Rat) : List PeriodBucket :=
  [⟨"2026-01", 100, 99, 1, 0⟩, ⟨"2026-02", 100, 98, 2, 0⟩, ⟨"2026-03", 100, 97, 3, 0⟩, ⟨"2026-04", 100, 100 - last, last, 0⟩]

theorem measured_calm : Measured (months 3) none .failRatePct 3 ⟨"2026-04", 100, 100 - 3, 3, 0⟩ ↔
    squaredDistance (months 3) .failRatePct 3 ⟨"2026-04", 100, 100 - 3, 3, 0⟩ <
      4 * sampleVariance (preceding (months 3) .failRatePct 3) :=
  measured_iff le_rfl rfl (by decide +kernel)

/-- A denial rate of 90 % after 1, 2 and 3 % raises nothing. -/
theorem not_forall_measured :
    ¬ ∀ buckets brokerId metric idx bucket, 3 ≤ idx → buckets[idx]? = some bucket →
      sampleVariance (preceding buckets metric idx) ≠ 0 → Measured buckets brokerId metric idx bucket := by
  intro h
  have hvar : sampleVariance (preceding (months 90) .failRatePct 3) ≠ 0 := by decide +kernel
  have hnine : 9 * sampleVariance (preceding (months 90) .failRatePct 3) ≤
      squaredDistance (months 90) .failRatePct 3 ⟨"2026-04", 100, 100 - 90, 90, 0⟩ := by decide +kernel
  obtain ⟨e, he, -⟩ := (h (months 90) none .failRatePct 3 _ le_rfl rfl hvar).high.2 hnine
  have hnone : eventAt (months 90) none .failRatePct 3 ⟨"2026-04", 100, 100 - 90, 90, 0⟩ = none :=
    eventAt_eq_none_iff.2 (by decide +kernel)
  rw [hnone] at he
  cases he

end RegEngine.Analytics
