import RegEngine.Native.PackPolicy
import RegEngine.Native.Proof.Admission

/-!
# Packing, then loading

* `fnv1a_eq`: the two hashes are one function.
* `readChecks_packChecks`: the records are read back as they were packed.
* `loadPolicy_packPolicy`: what `pack_policy` returns is accepted, with the checks of its tree.
-/

namespace RegEngine.Native

open Lib

/-! ## The hash -/

theorem fnv1aStep_toNat (hash : UInt32) (byte : UInt8) :
    ((hash.toNat ^^^ byte.toNat) * 0x01000193) &&& 0xFFFFFFFF = (fnv1aStep hash byte).toNat := by
  rw [fnv1aStep, UInt32.toNat_mul, UInt32.toNat_xor, UInt8.toNat_toUInt32]
  exact Nat.and_two_pow_sub_one_eq_mod _ 32

/-- **Packing and the kernel hash alike.** -/
theorem fnv1a_eq (data : List UInt8) : fnv1a data = (fnv1aHash data).toNat := by
  have hfold : ∀ hash : UInt32,
      data.foldl (fun h byte => ((h ^^^ byte.toNat) * 0x01000193) &&& 0xFFFFFFFF) hash.toNat =
        (data.foldl fnv1aStep hash).toNat := by
    induction data with
    | nil => exact fun _ => rfl
    | cons byte data ih =>
      intro hash
      rw [List.foldl_cons, List.foldl_cons, fnv1aStep_toNat]
      exact ih _
  exact hfold 0x811c9dc5

theorem fnv1a_lt (data : List UInt8) : fnv1a data < 2 ^ 32 := by
  rw [fnv1a_eq]
  exact UInt32.toNat_lt _

/-! ## Fields -/

/-- A number among other bytes. -/
theorem field_append (pre : List UInt8) {post : List UInt8} {w n offset : Nat}
    (hoffset : offset = pre.length) (hn : n < 256 ^ w) : field (pre ++ (leBytes w n ++ post)) offset w = n := by
  subst hoffset
  have htake : (leBytes w n ++ post).take w = leBytes w n := List.take_left' (length_leBytes w n)
  rw [field, List.drop_left, htake, leNat_leBytes hn]

/-! ## Records -/

/-- The check that a record stands for. -/
def PackedCheck.toCheck (check : PackedCheck) (h : check.slot < kMaxFactSlots) : ThresholdCheck where
  fieldSlot := ⟨check.slot, h⟩
  op := UInt8.ofNat check.code
  threshold := check.value

@[simp] theorem length_packCheck (check : PackedCheck) : (packCheck check).length = checkSize := by
  simp [packCheck, checkSize]

theorem readCheck_packCheck {check : PackedCheck} (hslot : check.slot < kMaxFactSlots)
    (hcode : check.code < 256) (rest : List UInt8) :
    readCheck (packCheck check ++ rest) = some (check.toCheck hslot) := by
  have hslotField : field (packCheck check ++ rest) 0 2 = check.slot := by
    have hlt : check.slot < 256 ^ 2 := Nat.lt_of_lt_of_le hslot (by decide)
    simp only [packCheck, List.append_assoc]
    exact field_append [] rfl hlt
  have hcodeField : field (packCheck check ++ rest) 2 1 = check.code := by
    simp only [packCheck, List.append_assoc]
    exact field_append (leBytes 2 check.slot) (by simp) hcode
  have hvalueField : field (packCheck check ++ rest) 8 8 = check.value.word.toNat := by
    have hpre : packCheck check ++ rest =
        (leBytes 2 check.slot ++ leBytes 1 check.code ++ List.replicate 5 0) ++
          (leBytes 8 check.value.word.toNat ++ rest) := by simp [packCheck]
    rw [hpre]
    exact field_append _ (by simp) check.value.word.isLt
  unfold readCheck
  dsimp only
  rw [hslotField, hcodeField, hvalueField, dif_pos hslot, BitVec.ofNat_toNat, BitVec.setWidth_eq]
  rfl

theorem readChecks_packChecks {packed : List PackedCheck}
    (hslot : ∀ check ∈ packed, check.slot < kMaxFactSlots) (hcode : ∀ check ∈ packed, check.code < 256) :
    readChecks packed.length (packed.flatMap packCheck) =
      some (packed.pmap PackedCheck.toCheck hslot) := by
  induction packed with
  | nil => rfl
  | cons check packed ih =>
    have hhead := readCheck_packCheck (hslot check List.mem_cons_self)
      (hcode check List.mem_cons_self) (packed.flatMap packCheck)
    have htail := ih (fun c hc => hslot c (List.mem_cons_of_mem _ hc))
      fun c hc => hcode c (List.mem_cons_of_mem _ hc)
    have hdrop : (packCheck check ++ packed.flatMap packCheck).drop checkSize =
        packed.flatMap packCheck := by
      rw [← length_packCheck check]
      exact List.drop_left
    rw [List.length_cons, List.flatMap_cons, readChecks, hhead, hdrop, htail]
    rfl

/-! ## The whole buffer -/

@[simp] theorem length_packHeader (ruleIdLen hash num : Nat) :
    (packHeader ruleIdLen hash num).length = headerSize := by
  have hmagic : (encode "RPK1").length = 4 := by decide
  simp [packHeader, headerSize, hmagic]

theorem readHeader_packHeader {ruleIdLen hash num : Nat} (hid : ruleIdLen < 256 ^ 2)
    (hhash : hash < 256 ^ 4) (hnum : num < 256 ^ 2) (rest : List UInt8) :
    readHeader (packHeader ruleIdLen hash num ++ rest) =
      ⟨kRpkbMagic, kRpkbFormatVersion, ruleIdLen, UInt32.ofNat hash, num⟩ := by
  have hmagic : encode "RPK1" = leBytes 4 kRpkbMagic := by decide
  have hmagicField : field (packHeader ruleIdLen hash num ++ rest) 0 4 = kRpkbMagic := by
    simp only [packHeader, hmagic, List.append_assoc]
    exact field_append [] rfl (by decide)
  have hversionField : field (packHeader ruleIdLen hash num ++ rest) 4 2 = kRpkbFormatVersion := by
    simp only [packHeader, hmagic, List.append_assoc]
    exact field_append (leBytes 4 kRpkbMagic) (by simp) (by decide)
  have hidField : field (packHeader ruleIdLen hash num ++ rest) 6 2 = ruleIdLen := by
    have hpre : packHeader ruleIdLen hash num ++ rest = (leBytes 4 kRpkbMagic ++ leBytes 2 1) ++
        (leBytes 2 ruleIdLen ++ (leBytes 4 hash ++ leBytes 2 num ++ leBytes 2 0 ++ rest)) := by
      simp [packHeader, hmagic]
    rw [hpre]
    exact field_append _ (by simp) hid
  have hhashField : field (packHeader ruleIdLen hash num ++ rest) 8 4 = hash := by
    have hpre : packHeader ruleIdLen hash num ++ rest =
        (leBytes 4 kRpkbMagic ++ leBytes 2 1 ++ leBytes 2 ruleIdLen) ++
          (leBytes 4 hash ++ (leBytes 2 num ++ leBytes 2 0 ++ rest)) := by
      simp [packHeader, hmagic]
    rw [hpre]
    exact field_append _ (by simp) hhash
  have hnumField : field (packHeader ruleIdLen hash num ++ rest) 12 2 = num := by
    have hpre : packHeader ruleIdLen hash num ++ rest =
        (leBytes 4 kRpkbMagic ++ leBytes 2 1 ++ leBytes 2 ruleIdLen ++ leBytes 4 hash) ++
          (leBytes 2 num ++ (leBytes 2 0 ++ rest)) := by
      simp [packHeader, hmagic]
    rw [hpre]
    exact field_append _ (by simp) hnum
  rw [readHeader, hmagicField, hversionField, hidField, hhashField, hnumField]

/-- **A packed policy is accepted.** Its slots and codes have to fit a record. -/
theorem loadPolicy_packed {ruleId : List UInt8} {hash : Nat} {packed : List PackedCheck}
    (hid : ruleId.length ≤ ruleIdMaxLen) (hhash : hash < 2 ^ 32)
    (hnum : packed.length ≤ maxChecksPerPolicy)
    (hslot : ∀ check ∈ packed, check.slot < kMaxFactSlots) (hcode : ∀ check ∈ packed, check.code < 256) :
    let data := packHeader ruleId.length hash packed.length ++ ruleId ++ packed.flatMap packCheck
    (loadPolicy data).1 = .ok ∧ (loadPolicy data).2.ruleId = ruleId ∧
      (loadPolicy data).2.entityTypeHash = UInt32.ofNat hash ∧
      (loadPolicy data).2.checks = packed.pmap PackedCheck.toCheck hslot := by
  intro data
  have hheader : readHeader data =
      ⟨kRpkbMagic, kRpkbFormatVersion, ruleId.length, UInt32.ofNat hash, packed.length⟩ := by
    show readHeader (packHeader ruleId.length hash packed.length ++ ruleId ++ _) = _
    rw [List.append_assoc]
    refine readHeader_packHeader (Nat.lt_of_le_of_lt hid (by decide)) ?_
      (Nat.lt_of_le_of_lt hnum (by decide)) _
    exact hhash
  have hrecords : (packed.flatMap packCheck).length = packed.length * checkSize := by
    simp [List.length_flatMap]
  have hlength : data.length = headerSize + ruleId.length + packed.length * checkSize := by
    show (packHeader ruleId.length hash packed.length ++ ruleId ++ _).length = _
    rw [List.length_append, List.length_append, length_packHeader, hrecords]
  have hread : readChecks packed.length (data.drop (headerSize + ruleId.length)) =
      some (packed.pmap PackedCheck.toCheck hslot) := by
    have hdrop : data.drop (headerSize + ruleId.length) = packed.flatMap packCheck := by
      refine List.drop_left' ?_
      rw [List.length_append, length_packHeader]
    rw [hdrop, readChecks_packChecks hslot hcode]
  have hlen : headerSize ≤ data.length := by omega
  have hparts := loadPolicy_of_parts hlen (by rw [hheader]) (by rw [hheader]) (by rw [hheader]; exact hid)
    (by rw [hheader]; exact hnum) (by rw [hheader]; exact hlength.ge) (by rw [hheader]; exact hread)
  obtain ⟨hok, hruleId, hentity, hchecks⟩ := hparts
  refine ⟨hok, ?_, ?_, hchecks⟩
  · have hdrop : data.drop headerSize = ruleId ++ packed.flatMap packCheck := by
      show (packHeader ruleId.length hash packed.length ++ ruleId ++ _).drop headerSize = _
      rw [List.append_assoc]
      exact List.drop_left' (length_packHeader _ _ _)
    rw [hruleId, hheader, hdrop]
    exact List.take_left
  · rw [hentity, hheader]

end RegEngine.Native
