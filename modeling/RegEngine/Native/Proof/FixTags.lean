import RegEngine.Native.Proof.FixScan

/-!
# Tag numbers that wrap around

The tag of a field is summed up in an `int` without looking at its length, so a long number stands for the
tag that it leaves modulo `2 ^ 32`. The comment in the source counts on numbers of at most 5 digits.

* `numberReading`: what is read for a tag by the numbers that are written.
* `result_decisive`: the verdict over the fields of four tags alone.
* `reads_numbers_iff`: when the tags are read as the numbers written.
-/

namespace RegEngine.Native.Fix

open Lib

/-! ## The numbers written -/

/-- The field has this number for its tag. -/
def hasTag (tag : Nat) (field : List UInt8) : Bool :=
  field.contains kEquals && numbered field && numberOf field == tag

/-- The value of the last field with the tag. -/
def numberReading (data : List UInt8) (tag : Nat) : Option (List UInt8) :=
  lastOf (hasTag tag) (fieldsOf data)

/-- The tags that decide on the result. -/
def decisiveTags : List Nat := [35, 11, 38, 44]

def decisive (field : List UInt8) : Bool := decisiveTags.any fun tag => hasTag tag field

theorem hasTag_iff {tag : Nat} {field : List UInt8} :
    hasTag tag field = true ↔
      (field.contains kEquals = true ∧ numbered field = true) ∧ numberOf field = tag := by
  rw [hasTag, Bool.and_eq_true, Bool.and_eq_true, beq_iff_eq]

theorem cppTakes_iff {tag : Nat} {field : List UInt8} :
    cppTakes tag field = true ↔
      (field.contains kEquals = true ∧ numbered field = true) ∧ numberOf field % 2 ^ 32 = tag := by
  rw [cppTakes, Bool.and_eq_true, Bool.and_eq_true, beq_iff_eq]

theorem lastOf_congr {p q : List UInt8 → Bool} {fields : List (List UInt8)}
    (h : ∀ field ∈ fields, p field = q field) : lastOf p fields = lastOf q fields := by
  unfold lastOf
  apply List.foldl_ext
  intro last field hfield
  rw [h field hfield]

theorem lastOf_filter (p q : List UInt8 → Bool) (fields : List (List UInt8)) :
    lastOf p (fields.filter q) = lastOf (fun field => q field && p field) fields := by
  unfold lastOf
  rw [List.foldl_filter]
  apply List.foldl_ext
  intro last field _
  show _ = if (q field && p field) = true then some (valueOf field) else last
  cases q field with
  | true => rfl
  | false => rfl

/-- Of the fields that decide, the scanner takes each for its number. -/
theorem lastOf_decisive {tag : Nat} (htag : tag ∈ decisiveTags) (fields : List (List UInt8)) :
    lastOf (cppTakes tag) (fields.filter decisive) = lastOf (hasTag tag) fields := by
  have hsmall : ∀ tag ∈ decisiveTags, tag % 2 ^ 32 = tag := by decide
  rw [lastOf_filter]
  apply lastOf_congr
  intro field _
  rw [Bool.eq_iff_iff, Bool.and_eq_true, decisive, List.any_eq_true, cppTakes_iff]
  constructor
  · intro ⟨⟨other, hother, hhas⟩, hfield, hnumber⟩
    have heq := (hasTag_iff.1 hhas).2
    rw [heq, hsmall other hother] at hnumber
    rwa [← hnumber]
  · intro hhas
    obtain ⟨hfield, hnumber⟩ := hasTag_iff.1 hhas
    refine ⟨⟨tag, htag, hhas⟩, hfield, ?_⟩
    rw [hnumber]
    exact hsmall tag htag

/-! ## The verdict -/

theorem result_missing_iff (scan : Scan) : scan.result = .missingMsgType ↔ scan.sawMsgType = false := by
  unfold Scan.result
  constructor
  · intro h
    by_contra hsaw
    rw [if_neg hsaw] at h
    split_ifs at h
  · intro h
    rw [if_pos h]

theorem result_not_new_iff (scan : Scan) :
    scan.result = .notNewOrderSingle ↔ scan.sawMsgType = true ∧ scan.isNewOrderSingle = false := by
  unfold Scan.result
  constructor
  · intro h
    by_cases hsaw : scan.sawMsgType = false
    · rw [if_pos hsaw] at h
      cases h
    · refine ⟨Bool.not_eq_false _ ▸ hsaw, ?_⟩
      by_contra hnew
      rw [if_neg hsaw, if_neg hnew] at h
      split_ifs at h
  · intro ⟨hsaw, hnew⟩
    rw [if_neg (by rw [hsaw]; decide), if_pos hnew]

/-- Two readings that the verdict cannot tell apart. -/
structure SameVerdict (r r' : Nat → Option (List UInt8)) : Prop where
  present : (r 35).isSome = (r' 35).isSome
  msgType : r 35 = some (ascii "D") ↔ r' 35 = some (ascii "D")
  values : ∀ tag ∈ decisiveTags.tail, (r tag).getD [] = (r' tag).getD []

variable {r r' : Nat → Option (List UInt8)} {orderQty price orderQty' price' : Binary64}

theorem SameVerdict.result (h : SameVerdict r r') :
    (viewOf r orderQty price).result = (viewOf r' orderQty' price').result := by
  have hmsg : decide (r 35 = some (ascii "D")) = decide (r' 35 = some (ascii "D")) :=
    decide_eq_decide.2 h.msgType
  unfold Scan.result viewOf
  dsimp only
  rw [h.present, hmsg, h.values 11 (by decide), h.values 38 (by decide), h.values 44 (by decide)]

/-- The verdict tells whether there is a message type and whether it is that of an order. -/
theorem sameVerdict_of_result (hvalues : ∀ tag ∈ decisiveTags.tail, (r tag).getD [] = (r' tag).getD [])
    (h : (viewOf r orderQty price).result = (viewOf r' orderQty' price').result) : SameVerdict r r' := by
  have hmissing := (result_missing_iff (viewOf r orderQty price)).symm
  rw [h, result_missing_iff] at hmissing
  have hnew := (result_not_new_iff (viewOf r orderQty price)).symm
  rw [h, result_not_new_iff] at hnew
  have hpresent : (r 35).isSome = (r' 35).isSome := by
    have hnone : (r 35).isSome = false ↔ (r' 35).isSome = false := hmissing
    rw [Bool.eq_iff_iff, ← Bool.not_eq_false, ← Bool.not_eq_false]
    exact not_congr hnone
  have hnotNew : (r 35).isSome = true ∧ decide (r 35 = some (ascii "D")) = false ↔
      (r' 35).isSome = true ∧ decide (r' 35 = some (ascii "D")) = false := hnew
  rw [hpresent, and_congr_right_iff, decide_eq_false_iff_not, decide_eq_false_iff_not] at hnotNew
  refine ⟨hpresent, ?_, hvalues⟩
  constructor
  · intro hmsg
    rw [hmsg] at hpresent
    by_contra hother
    exact (hnotNew hpresent.symm).2 hother hmsg
  · intro hmsg
    rw [hmsg] at hpresent hnotNew
    by_contra hother
    exact (hnotNew rfl).1 hother rfl

/-- **The verdict over the fields that decide** is that of the numbers written. -/
theorem result_decisive (data : List UInt8) :
    ∃ orderQty price, (((fieldsOf data).filter decisive).foldl Scan.visit {}).result =
      (viewOf (numberReading data) orderQty price).result := by
  have hnone : Kept [] (Binary64.ofRat 0) := by
    intro q hq
    cases hq
  obtain ⟨orderQty, price, hscan, -, -⟩ :=
    foldl_visit ((fieldsOf data).filter decisive) (r := fun _ => none) hnone hnone
  refine ⟨orderQty, price, ?_⟩
  have hreading : ∀ tag ∈ decisiveTags,
      lastOf (cppTakes tag) ((fieldsOf data).filter decisive) = numberReading data tag :=
    fun tag htag => lastOf_decisive htag (fieldsOf data)
  have hstart : ({} : Scan) = viewOf (fun _ => none) (.ofRat 0) (.ofRat 0) := rfl
  rw [hstart, hscan]
  apply SameVerdict.result
  constructor
  · exact congrArg Option.isSome (hreading 35 (by decide))
  · exact Eq.congr_left (hreading 35 (by decide))
  · intro tag htag
    exact congrArg (fun o => o.getD []) (hreading tag (List.mem_cons_of_mem _ htag))

/-! ## Reading -/

/-- The slices of the result, by their tags. -/
def slices : List (Nat × (NewOrderSingleFields → List UInt8)) :=
  [(49, (·.senderCompId)), (56, (·.targetCompId)), (34, (·.msgSeqNum)), (11, (·.clOrdId)),
    (1, (·.account)), (55, (·.symbol)), (54, (·.side)), (40, (·.ordType)), (38, (·.orderQtyRaw)),
    (44, (·.priceRaw))]

/-- What is read is an order. -/
structure IsOrder (r : Nat → Option (List UInt8)) : Prop where
  msgType : r 35 = some (ascii "D")
  clOrdId : (r 11).getD [] ≠ []
  orderQty : (parsePlainDecimal ((r 38).getD [])).isSome = true
  price : (parsePlainDecimal ((r 44).getD [])).isSome = true

/-- The tags of a message are read as the numbers written. -/
structure ReadsNumbers (data : List UInt8) : Prop where
  accepted : (scanNewOrderSingle data).1 = .ok ↔ IsOrder (numberReading data)
  slices : ∀ s ∈ slices, s.2 (scanNewOrderSingle data).2 = (numberReading data s.1).getD []
  /-- The other fields have no influence. -/
  others : data ≠ [] →
    (scanNewOrderSingle data).1 = (((fieldsOf data).filter decisive).foldl Scan.visit {}).result

/-- No number that wraps around has the last word on a tag: a slice is the same by the numbers modulo
`2 ^ 32` and by the numbers, and so is whether the message is an order. -/
structure Unaliased (data : List UInt8) : Prop where
  slices : ∀ s ∈ slices, (cppReading data s.1).getD [] = (numberReading data s.1).getD []
  present : (cppReading data 35).isSome = (numberReading data 35).isSome
  msgType : cppReading data 35 = some (ascii "D") ↔ numberReading data 35 = some (ascii "D")

/-- Numbers that fit need no condition. -/
theorem unaliased_of_lt {data : List UInt8}
    (h : ∀ field ∈ fieldsOf data, numbered field = true → numberOf field < 2 ^ 32) : Unaliased data := by
  have hreading : ∀ tag, cppReading data tag = numberReading data tag := by
    intro tag
    apply lastOf_congr
    intro field hfield
    rw [Bool.eq_iff_iff, cppTakes_iff, hasTag_iff, and_congr_right_iff]
    intro hnumbered
    rw [Nat.mod_eq_of_lt (h field hfield hnumbered.2)]
  exact ⟨fun s _ => congrArg (fun o => o.getD []) (hreading s.1), by rw [hreading], by rw [hreading]⟩

theorem slices_viewOf (r : Nat → Option (List UInt8)) (orderQty price : Binary64) :
    ∀ s ∈ slices, s.2 (viewOf r orderQty price).out = (r s.1).getD [] := by
  simp only [slices, List.forall_mem_cons]
  exact ⟨rfl, rfl, rfl, rfl, rfl, rfl, rfl, rfl, rfl, rfl, nofun⟩

theorem isOrder_iff (r : Nat → Option (List UInt8)) : CppOrder r ↔ IsOrder r := by
  constructor
  · intro h
    exact ⟨h.msgType, h.clOrdId, (parsePlainDecimal_isSome_iff _).2 h.orderQty,
      (parsePlainDecimal_isSome_iff _).2 h.price⟩
  · intro h
    exact ⟨h.msgType, h.clOrdId, (parsePlainDecimal_isSome_iff _).1 h.orderQty,
      (parsePlainDecimal_isSome_iff _).1 h.price⟩

theorem scan_of_ne {data : List UInt8} (h : data ≠ []) :
    scanNewOrderSingle data = ((scanFields data).result, (scanFields data).out) := if_neg h

/-- **The tags are read as the numbers written just where no number that wraps around has the last
word.** -/
theorem reads_numbers_iff (data : List UInt8) : ReadsNumbers data ↔ Unaliased data := by
  by_cases hdata : data = []
  · subst hdata
    have hunaliased : Unaliased [] := by
      apply unaliased_of_lt
      intro field hfield hnumbered
      rw [List.mem_singleton.1 hfield] at hnumbered
      cases hnumbered
    refine iff_of_true ⟨?_, ?_, fun h => absurd rfl h⟩ hunaliased
    · refine ⟨nofun, fun h => ?_⟩
      cases h.msgType
    · exact slices_viewOf (fun _ => none) (.ofRat 0) (.ofRat 0)
  obtain ⟨orderQty, price, hscan, -, -⟩ := scanFields_eq data
  obtain ⟨orderQty', price', hdecisive⟩ := result_decisive data
  have hslices := slices_viewOf (cppReading data) orderQty price
  have hvalues : (∀ s ∈ slices, (cppReading data s.1).getD [] = (numberReading data s.1).getD []) →
      ∀ tag ∈ decisiveTags.tail, (cppReading data tag).getD [] = (numberReading data tag).getD [] := by
    intro h tag htag
    have hsub : ∀ tag ∈ decisiveTags.tail, tag ∈ slices.map (·.1) := by decide
    obtain ⟨s, hs, rfl⟩ := List.mem_map.1 (hsub tag htag)
    exact h s hs
  constructor
  · intro h
    have hsame : ∀ s ∈ slices, (cppReading data s.1).getD [] = (numberReading data s.1).getD [] := by
      intro s hs
      have hslice := h.slices s hs
      rw [scan_of_ne hdata, hscan] at hslice
      rw [← hslice, hslices s hs]
    have hresult := h.others hdata
    rw [scan_of_ne hdata, hscan, hdecisive] at hresult
    have hverdict := sameVerdict_of_result (hvalues hsame) hresult
    exact ⟨hsame, hverdict.present, hverdict.msgType⟩
  · intro h
    have hverdict : SameVerdict (cppReading data) (numberReading data) :=
      ⟨h.present, h.msgType, hvalues h.slices⟩
    have hresult : (scanNewOrderSingle data).1 = (viewOf (numberReading data) orderQty' price').result := by
      rw [scan_of_ne hdata, hscan]
      exact hverdict.result
    constructor
    · rw [hresult, result_viewOf, isOrder_iff]
    · intro s hs
      rw [scan_of_ne hdata, hscan, hslices s hs]
      exact h.slices s hs
    · intro _
      rw [hresult, hdecisive]

/-- The message type under the number `2 ^ 32 + 35`. -/
def aliasedOrder : List UInt8 :=
  ascii "4294967331=D" ++ [kSOH] ++ (ascii "11=A" ++ [kSOH]) ++ (ascii "38=1" ++ [kSOH]) ++
    (ascii "44=2" ++ [kSOH])

/-- It is taken for an order. -/
theorem not_forall_readsNumbers : ¬ ∀ data, ReadsNumbers data := by
  intro h
  have hok : (scanNewOrderSingle aliasedOrder).1 = .ok := by decide +kernel
  have horder := ((h aliasedOrder).accepted.1 hok).msgType
  have hnone : numberReading aliasedOrder 35 = none := by decide +kernel
  rw [hnone] at horder
  cases horder

end RegEngine.Native.Fix
