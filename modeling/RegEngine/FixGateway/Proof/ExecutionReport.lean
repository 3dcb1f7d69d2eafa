import RegEngine.FixGateway.HotReload
import RegEngine.FixGateway.Proof.HotReload
import RegEngine.FixGateway.Proof.Scanner
import RegEngine.Lib.Words
import RegEngine.Native.Proof.FixReport

/-!
# Reports that can be read back

Both builders put fields one after the other, count the bytes of the body and sum up all that stands before
the checksum. That the reader finds the same fields depends on their values: one of them that holds the
delimiter is read as two, and the Python builder raises on a character that is not ASCII.

* `faithful_iff`: the fields of a framed report are read back unless a value holds the delimiter.
* `build_some_iff`: the reports of the Python builder.
* `clean_order`: what the scanner read can be answered.
* `report_faithful_iff`: when both reports are faithful.
-/

namespace RegEngine.FixGateway

open Lib Lib.Python Lib.Delimited
open Native (encode)
open Native.Fix (kSOH kEquals kZero ascii decimal fieldText fieldsOf lastOf valueOf kBodySize bodyLength
  NewOrderSingleFields ExecutionReportInput)

/-! ## Fields -/

/-- `tag=value`. -/
def spelled (f : Nat × List UInt8) : List UInt8 := decimal f.1 ++ kEquals :: f.2

/-- Fields one after the other. -/
def fieldsText (fs : List (Nat × List UInt8)) : List UInt8 := terminate kSOH (fs.map spelled)

/-- Three digits. -/
def digits (sum : Nat) : List UInt8 :=
  [kZero + UInt8.ofNat (sum / 100), kZero + UInt8.ofNat (sum / 10 % 10), kZero + UInt8.ofNat (sum % 10)]

theorem fieldText_eq (tag : Nat) (value : List UInt8) :
    fieldText tag value = spelled (tag, value) ++ [kSOH] := by
  simp [fieldText, spelled]

theorem fieldsText_cons (f : Nat × List UInt8) (fs : List (Nat × List UInt8)) :
    fieldsText (f :: fs) = fieldText f.1 f.2 ++ fieldsText fs := by
  rw [fieldsText, List.map_cons, terminate_cons, fieldText_eq, List.append_assoc]
  rfl

theorem fieldsText_append (fs gs : List (Nat × List UInt8)) :
    fieldsText (fs ++ gs) = fieldsText fs ++ fieldsText gs := by
  rw [fieldsText, List.map_append, terminate_append]
  rfl

theorem decimal_digit (n : Nat) : ∀ c ∈ decimal n, Native.Fix.isDigit c = true := by
  intro c hc
  obtain ⟨d, hd, rfl⟩ := List.mem_map.1 hc
  have hdigit := Nat.isDigit_of_mem_toDigits (by decide) (by decide) hd
  have hlt : d.toNat < 58 ∧ 48 ≤ d.toNat := by
    have hzero : '0'.toNat = 48 := rfl
    have hnine : '9'.toNat = 57 := rfl
    rw [Char.isDigit_iff_toNat] at hdigit
    omega
  rw [Native.Fix.isDigit, Bool.and_eq_true, decide_eq_true_eq, decide_eq_true_eq, UInt8.le_iff_toNat_le,
    UInt8.le_iff_toNat_le, UInt8.toNat_ofNat_of_lt' (by rw [UInt8.size]; omega)]
  show 48 ≤ d.toNat ∧ d.toNat ≤ 57
  omega

theorem soh_notMem_spelled {f : Nat × List UInt8} : kSOH ∉ spelled f ↔ kSOH ∉ f.2 := by
  have hdecimal : kSOH ∉ decimal f.1 := by
    intro hmem
    have hdigit := decimal_digit f.1 kSOH hmem
    cases hdigit
  have hequals : kSOH ≠ kEquals := by decide
  rw [spelled, List.mem_append, List.mem_cons]
  constructor
  · intro h hvalue
    exact h (.inr (.inr hvalue))
  · intro h hmem
    rcases hmem with hmem | hmem | hmem
    · exact hdecimal hmem
    · exact hequals hmem
    · exact h hmem

theorem soh_notMem_digits {sum : Nat} (h : sum < 256) : kSOH ∉ digits sum := by
  have hall : ∀ sum < 256, kSOH ∉ digits sum := by decide +kernel
  exact hall sum h

/-! ## Frames -/

/-- What stands before the checksum. -/
def headOf (body : List UInt8) : List UInt8 :=
  fieldText 8 (ascii "FIX.4.4") ++ fieldText 9 (decimal body.length) ++ body

/-- The sum of the bytes modulo 256. -/
def byteSum (bytes : List UInt8) : Nat := (bytes.map UInt8.toNat).sum % 256

/-- The report in its frame: its length counts the bytes up to the checksum. -/
def framed (body : List UInt8) : List UInt8 := headOf body ++ fieldText 10 (digits (byteSum (headOf body)))

/-- The report is framed, and is read back as its version, its length, these fields and its checksum. -/
def Faithful (fs : List (Nat × List UInt8)) (report : List UInt8) : Prop :=
  ∃ body, report = framed body ∧
    report.splitOn kSOH =
      ([(8, ascii "FIX.4.4"), (9, decimal body.length)] ++ fs ++
        [(10, digits (byteSum (headOf body)))]).map spelled ++ [[]]

/-- **The fields are read back unless a value holds the delimiter.** -/
theorem faithful_iff (fs : List (Nat × List UInt8)) :
    Faithful fs (framed (fieldsText fs)) ↔ ∀ f ∈ fs, kSOH ∉ f.2 := by
  constructor
  · intro ⟨body, _, hsplit⟩ f hf
    rw [← soh_notMem_spelled]
    refine notMem_of_mem_splitOn (l := framed (fieldsText fs)) ?_
    rw [hsplit]
    refine List.mem_append_left _ (List.mem_map_of_mem ?_)
    exact List.mem_append_left _ (List.mem_append_right _ hf)
  · intro h
    refine ⟨fieldsText fs, rfl, ?_⟩
    have hsum : byteSum (headOf (fieldsText fs)) < 256 := Nat.mod_lt _ (by decide)
    have htext : framed (fieldsText fs) = fieldsText ([(8, ascii "FIX.4.4"),
        (9, decimal (fieldsText fs).length)] ++ fs ++
          [(10, digits (byteSum (headOf (fieldsText fs))))]) := by
      rw [fieldsText_append, fieldsText_append, fieldsText_cons, fieldsText_cons, fieldsText_cons]
      show headOf (fieldsText fs) ++ _ = _
      simp [headOf, fieldsText, terminate]
    rw [htext]
    refine (splitOn_terminate_iff _).2 (List.forall_mem_map.2 fun f hf => soh_notMem_spelled.2 ?_)
    rcases List.mem_append.1 hf with hf | hf
    · rcases List.mem_append.1 hf with hf | hf
      · rcases List.mem_pair.1 hf with rfl | rfl
        · decide
        · intro hmem
          cases decimal_digit _ kSOH hmem
      · exact h f hf
    · rw [List.mem_singleton.1 hf]
      exact soh_notMem_digits hsum

/-! ## Texts -/

def AsciiText (s : String) : Prop := ∀ c ∈ s.toList, c.toNat < 128

/-- ASCII without the delimiter. -/
def Clean (s : String) : Prop := ∀ c ∈ s.toList, c.toNat < 128 ∧ c ≠ '\x01'

instance (s : String) : Decidable (AsciiText s) :=
  List.decidableBAll _ s.toList

instance (s : String) : Decidable (Clean s) :=
  List.decidableBAll _ s.toList

theorem Clean.ascii {s : String} (h : Clean s) : AsciiText s := fun c hc => (h c hc).1

theorem encodeAscii_eq_some {s : String} {bytes : List UInt8} :
    encodeAscii s = some bytes ↔ AsciiText s ∧ bytes = ascii s := by
  have hall : (s.toList.all fun c => c.toNat < 128) = true ↔ AsciiText s := by
    rw [List.all_eq_true]
    exact forall₂_congr fun c _ => decide_eq_true_iff
  unfold encodeAscii
  by_cases h : (s.toList.all fun c => c.toNat < 128) = true
  · rw [if_pos h, Option.some_inj, eq_comm, and_iff_right (hall.1 h)]
  · rw [if_neg h]
    exact ⟨nofun, fun hs => absurd (hall.2 hs.1) h⟩

theorem ascii_append (s t : String) : ascii (s ++ t) = ascii s ++ ascii t := by
  rw [ascii, String.toList_append, List.map_append]
  rfl

theorem asciiText_append {s t : String} : AsciiText (s ++ t) ↔ AsciiText s ∧ AsciiText t := by
  unfold AsciiText
  rw [String.toList_append, List.forall_mem_append]

theorem clean_append {s t : String} : Clean (s ++ t) ↔ Clean s ∧ Clean t := by
  unfold Clean
  rw [String.toList_append, List.forall_mem_append]

theorem ascii_toString (n : Nat) : ascii (toString n) = decimal n := by
  rw [ascii, Nat.toString_eq_repr, Nat.toList_repr]
  rfl

theorem clean_toString (n : Nat) : Clean (toString n) := by
  intro c hc
  rw [Nat.toString_eq_repr, Nat.toList_repr] at hc
  have hdigit := Nat.isDigit_of_mem_toDigits (by decide) (by decide) hc
  have hzero : '0'.toNat = 48 := rfl
  have hnine : '9'.toNat = 57 := rfl
  rw [Char.isDigit_iff_toNat] at hdigit
  refine ⟨by omega, ?_⟩
  intro heq
  rw [heq] at hdigit
  have hsoh : '\x01'.toNat = 1 := rfl
  omega

theorem soh_mem_ascii {s : String} (h : AsciiText s) : kSOH ∉ ascii s ↔ '\x01' ∉ s.toList := by
  have hbyte : ∀ c ∈ s.toList, (UInt8.ofNat c.toNat = kSOH ↔ c = '\x01') := by
    intro c hc
    have hlt := h c hc
    rw [← UInt8.toNat_inj, UInt8.toNat_ofNat_of_lt' (by rw [UInt8.size]; omega), ← Char.toNat_inj]
    rfl
  rw [ascii, List.mem_map, not_iff_not]
  constructor
  · intro ⟨c, hc, heq⟩
    rw [← (hbyte c hc).1 heq]
    exact hc
  · intro hc
    exact ⟨_, hc, (hbyte _ hc).2 rfl⟩

theorem clean_iff {s : String} : Clean s ↔ AsciiText s ∧ kSOH ∉ ascii s := by
  constructor
  · intro h
    exact ⟨h.ascii, (soh_mem_ascii h.ascii).2 fun hmem => (h _ hmem).2 rfl⟩
  · intro ⟨hascii, hsoh⟩ c hc
    refine ⟨hascii c hc, ?_⟩
    intro heq
    rw [heq] at hc
    exact (soh_mem_ascii hascii).1 hsoh hc

/-! ## The Python builder -/

/-- The bytes of a field. -/
def bytesOf (f : Nat × String) : Nat × List UInt8 := (f.1, ascii f.2)

theorem ascii_field (tag : Nat) (value : String) : ascii (field tag value) = fieldText tag (ascii value) := by
  have hequals : ascii "=" = [kEquals] := by decide
  have hsoh : ascii "\x01" = [kSOH] := by decide
  rw [field, ascii_append, ascii_append, ascii_append, ascii_toString, hequals, hsoh, fieldText,
    List.append_assoc, List.append_assoc]

theorem asciiText_field (tag : Nat) (value : String) : AsciiText (field tag value) ↔ AsciiText value := by
  have hequals : AsciiText "=" := by decide
  have hsoh : AsciiText "\x01" := by decide
  rw [field, asciiText_append, asciiText_append, asciiText_append]
  exact ⟨fun h => h.1.2, fun h => ⟨⟨⟨(clean_toString tag).ascii, hequals⟩, h⟩, hsoh⟩⟩

/-- A text of fields. -/
def fieldsString (fs : List (Nat × String)) : String := String.join (fs.map fun f => field f.1 f.2)

theorem ascii_fieldsString (fs : List (Nat × String)) :
    ascii (fieldsString fs) = fieldsText (fs.map bytesOf) := by
  induction fs with
  | nil => rfl
  | cons f fs ih =>
    rw [fieldsString, List.map_cons, String.join_cons, ascii_append, ascii_field]
    show _ ++ ascii (fieldsString fs) = _
    rw [ih, List.map_cons, fieldsText_cons]
    rfl

theorem asciiText_fieldsString (fs : List (Nat × String)) :
    AsciiText (fieldsString fs) ↔ ∀ f ∈ fs, AsciiText f.2 := by
  induction fs with
  | nil =>
    refine iff_of_true ?_ fun f hf => by cases hf
    intro c hc
    cases hc
  | cons f fs ih =>
    rw [fieldsString, List.map_cons, String.join_cons, asciiText_append, asciiText_field,
      List.forall_mem_cons, ← ih]
    rfl

/-- The fields of a rejection with a reason. -/
def reasonFields (outcome : ValidationOutcome) : List (Nat × String) :=
  match outcome.accepted, outcome.violatedReason with
  | false, some reason =>
    [(103, toString reason.ordRejReason.code), (58, reason.text), (9001, reason.clauseRef)]
  | _, _ => []

/-- The fields of the body that are meant. -/
def reportFields (order : ParsedOrder) (outcome : ValidationOutcome) (ctx : ExecutionReportContext) :
    List (Nat × String) :=
  [(35, "8"), (49, ctx.senderCompId), (56, order.senderCompId), (52, ctx.sendingTime), (37, "NONE"),
    (11, order.clOrdId), (17, ctx.execId), (150, statusText outcome), (39, statusText outcome),
    (55, order.symbol), (54, order.side), (1, order.account), (38, order.orderQtyRaw),
    (44, order.priceRaw), (14, toString 0),
    (151, if outcome.accepted then order.orderQtyRaw else toString 0)] ++ reasonFields outcome

variable {order : ParsedOrder} {outcome : ValidationOutcome} {ctx : ExecutionReportContext}

theorem reportBody_eq : reportBody order outcome ctx = fieldsString (reportFields order outcome ctx) := by
  have hreason : reasonText outcome = fieldsString (reasonFields outcome) := by
    obtain ⟨accepted, reason⟩ := outcome
    cases accepted with
    | true => rfl
    | false =>
      cases reason with
      | none => rfl
      | some reason => rfl
  rw [reportBody, hreason, fieldsString, fieldsString, reportFields, List.map_append, String.join_append]
  rfl

theorem threeDigits_spec {n : Nat} (h : n < 256) :
    AsciiText (threeDigits n) ∧ ascii (threeDigits n) = digits n := by
  have hall : ∀ n < 256, ((threeDigits n).toList.all fun c => c.toNat < 128) = true ∧
      ascii (threeDigits n) = digits n := by decide +kernel
  obtain ⟨hascii, hdigits⟩ := hall n h
  refine ⟨?_, hdigits⟩
  rw [List.all_eq_true] at hascii
  exact fun c hc => of_decide_eq_true (hascii c hc)

/-- **The Python builder returns the framed fields** if all of them are ASCII. -/
theorem build_some_iff {report : List UInt8} :
    buildExecutionReport order outcome ctx = some report ↔
      (∀ f ∈ reportFields order outcome ctx, AsciiText f.2) ∧
        report = framed (fieldsText ((reportFields order outcome ctx).map bytesOf)) := by
  have hheader : ∀ n : Nat, encodeAscii (field 8 "FIX.4.4" ++ field 9 (toString n)) =
      some (fieldText 8 (ascii "FIX.4.4") ++ fieldText 9 (decimal n)) := by
    intro n
    rw [encodeAscii_eq_some, asciiText_append, asciiText_field, asciiText_field, ascii_append, ascii_field,
      ascii_field, ascii_toString]
    exact ⟨⟨by decide, (clean_toString n).ascii⟩, rfl⟩
  have htrailer : ∀ n < 256, encodeAscii (field 10 (threeDigits n)) = some (fieldText 10 (digits n)) := by
    intro n hn
    obtain ⟨hascii, hdigits⟩ := threeDigits_spec hn
    rw [encodeAscii_eq_some, asciiText_field, ascii_field, hdigits]
    exact ⟨hascii, rfl⟩
  have hbody : ∀ bodyBytes : List UInt8,
      (do
        let header ← encodeAscii (field 8 "FIX.4.4" ++ field 9 (toString bodyBytes.length))
        let messageWithoutChecksum := header ++ bodyBytes
        let checksum := (messageWithoutChecksum.map UInt8.toNat).sum % 256
        let trailer ← encodeAscii (field 10 (threeDigits checksum))
        pure (messageWithoutChecksum ++ trailer)) = some (framed bodyBytes) := by
    intro bodyBytes
    rw [hheader]
    show (encodeAscii (field 10 (threeDigits (byteSum (headOf bodyBytes)))) >>= fun trailer =>
      pure (headOf bodyBytes ++ trailer)) = _
    rw [htrailer (byteSum (headOf bodyBytes)) (Nat.mod_lt _ (by decide))]
    rfl
  unfold buildExecutionReport
  rw [Option.bind_eq_bind, Option.bind_eq_some_iff]
  constructor
  · intro ⟨bodyBytes, hbytes, h⟩
    have hreport := Option.some.inj ((hbody bodyBytes).symm.trans h)
    rw [encodeAscii_eq_some, reportBody_eq, asciiText_fieldsString, ascii_fieldsString] at hbytes
    exact ⟨hbytes.1, by rw [← hreport, hbytes.2]⟩
  · intro ⟨hascii, hreport⟩
    refine ⟨fieldsText ((reportFields order outcome ctx).map bytesOf), ?_, ?_⟩
    · rw [encodeAscii_eq_some, reportBody_eq, asciiText_fieldsString, ascii_fieldsString]
      exact ⟨hascii, rfl⟩
    · rw [hreport]
      exact hbody _

/-- A report is returned and read back just when all values are clean. -/
theorem python_faithful_iff :
    (∃ report, buildExecutionReport order outcome ctx = some report ∧
        Faithful ((reportFields order outcome ctx).map bytesOf) report) ↔
      ∀ f ∈ reportFields order outcome ctx, Clean f.2 := by
  constructor
  · intro ⟨report, hbuild, hfaithful⟩ f hf
    obtain ⟨hascii, rfl⟩ := build_some_iff.1 hbuild
    exact clean_iff.2 ⟨hascii f hf, (faithful_iff _).1 hfaithful (bytesOf f) (List.mem_map_of_mem hf)⟩
  · intro h
    refine ⟨_, build_some_iff.2 ⟨fun f hf => (h f hf).ascii, rfl⟩, (faithful_iff _).2 ?_⟩
    exact List.forall_mem_map.2 fun f hf => (clean_iff.1 (h f hf)).2

/-! ## The native builder -/

/-- The fields of the native body that are meant. -/
def nativeFields (input : ExecutionReportInput) : List (Nat × List UInt8) :=
  [(35, ascii "8"), (49, input.senderCompId), (56, input.targetCompId), (52, input.sendingTime),
    (37, input.orderId), (11, input.clOrdId), (17, input.execId),
    (150, [Native.Fix.statusChar input.accepted]), (39, [Native.Fix.statusChar input.accepted]),
    (55, input.symbol), (54, input.side), (38, input.orderQtyRaw), (44, input.priceRaw), (14, ascii "0"),
    (151, if input.accepted then input.orderQtyRaw else ascii "0")] ++
  if input.accepted then []
  else
    [(103, decimal (Native.Fix.asUint input.ordRejReason)), (58, input.rejectionText),
      (9001, input.sebiClauseRef)]

theorem bodyText_eq (input : ExecutionReportInput) :
    Native.Fix.bodyText input = fieldsText (nativeFields input) := by
  have hzero : decimal (Native.Fix.asUint 0) = ascii "0" := by decide
  have height : ([0x38] : List UInt8) = ascii "8" := by decide
  have hnil : fieldsText [] = [] := rfl
  unfold Native.Fix.bodyText nativeFields
  rw [hzero, height]
  cases input.accepted with
  | true =>
    simp only [if_true, List.append_nil, fieldsText_cons, hnil]
  | false =>
    simp only [Bool.false_eq_true, if_false, List.cons_append, List.nil_append, fieldsText_cons, hnil,
      List.append_nil]

/-- The sum in 32 bits is as good as any: 256 divides their number. -/
theorem checksum_eq (bytes : List UInt8) : Native.Fix.checksum bytes = byteSum bytes := by
  have hfold : ∀ sum : Nat,
      bytes.foldl (fun sum byte => (sum + byte.toNat) % 2 ^ 32) sum % 256 =
        (sum + (bytes.map UInt8.toNat).sum) % 256 := by
    induction bytes with
    | nil => exact fun _ => rfl
    | cons byte bytes ih =>
      intro sum
      rw [List.foldl_cons, ih, List.map_cons, List.sum_cons]
      omega
  rw [Native.Fix.checksum, hfold, Nat.zero_add]
  rfl

theorem checksumText_eq (sum : Nat) : Native.Fix.checksumText sum = fieldText 10 (digits sum) := by
  have hten : decimal 10 = [0x31, 0x30] := by decide
  rw [fieldText, hten]
  rfl

/-- **The native builder frames its body** when both arrays have room. -/
theorem native_framed {input : ExecutionReportInput} {capacity : Nat}
    (hbody : bodyLength input ≤ kBodySize) (hroom : bodyLength input + 32 ≤ capacity) :
    ∃ report, Native.Fix.buildExecutionReport input capacity = .ok report ∧
      report.bytes = framed (fieldsText (nativeFields input)) := by
  have hbytes := (Native.Fix.appends_body input).bytes_eq
  rw [Native.Fix.length_bodyText, if_pos hbody] at hbytes
  obtain ⟨body, hsome, hbody'⟩ := Option.map_eq_some_iff.1 hbytes
  have hlength : body.bytes.length = bodyLength input := by rw [hbody', Native.Fix.length_bodyText]
  rw [← hlength] at hroom hbody
  obtain ⟨out, hout⟩ := Option.isSome_iff_exists.1 (Native.Fix.appendFrame_isSome hbody hroom)
  refine ⟨out, ?_, ?_⟩
  · unfold Native.Fix.buildExecutionReport
    rw [hsome]
    dsimp only
    rw [if_neg (Nat.not_lt.2 hroom), hout]
  · have happends : Buffer.Appends (Native.Fix.appendFrame body.bytes : Buffer.Writer capacity) _ :=
      Native.Fix.appends_frame body.bytes
    have hframe := happends.bytes_eq
    have hsmall : body.bytes.length < 2 ^ 31 := by
      unfold kBodySize at hbody
      omega
    rw [hout, Option.map_some] at hframe
    split at hframe
    · rw [Option.some_inj.1 hframe, Native.Fix.asUint_ofNat hsmall, checksum_eq, checksumText_eq, hbody',
        bodyText_eq]
      simp only [framed, headOf, List.nil_append, List.append_assoc]
    · cases hframe

/-! ## What was scanned -/

/-- A reading holds bytes of one field. -/
theorem mem_lastOf {takes : List UInt8 → Bool} {fields : List (List UInt8)} {c : UInt8}
    (h : c ∈ (lastOf takes fields).getD []) : ∃ f ∈ fields, c ∈ f := by
  have hfold : ∀ last : Option (List UInt8), c ∈ (fields.foldl
      (fun last f => if takes f then some (valueOf f) else last) last).getD [] →
        c ∈ last.getD [] ∨ ∃ f ∈ fields, c ∈ f := by
    clear h
    induction fields with
    | nil => exact fun last hc => .inl hc
    | cons f fields ih =>
      intro last hc
      cases ih _ hc with
      | inl hlast =>
        dsimp only at hlast
        split at hlast
        · refine .inr ⟨f, List.mem_cons_self, ?_⟩
          exact (List.dropWhile_sublist _).mem (List.mem_of_mem_drop hlast)
        · exact .inl hlast
      | inr hrest =>
        obtain ⟨g, hg, hc⟩ := hrest
        exact .inr ⟨g, List.mem_cons_of_mem _ hg, hc⟩
  cases hfold none h with
  | inl hnil => cases hnil
  | inr hmem => exact hmem

theorem soh_notMem_lastOf (takes : List UInt8 → Bool) (data : List UInt8) :
    kSOH ∉ (lastOf takes (fieldsOf data)).getD [] := by
  intro h
  obtain ⟨f, hf, hc⟩ := mem_lastOf h
  exact notMem_of_mem_splitOn hf hc

theorem clean_text {bytes : List UInt8} (hascii : ∀ b ∈ bytes, b < 128) (hsoh : kSOH ∉ bytes) :
    Clean (Ascii.text bytes) := by
  intro c hc
  rw [Ascii.toList_text] at hc
  obtain ⟨b, hb, rfl⟩ := List.mem_map.1 hc
  have hlt := UInt8.lt_iff_toNat_lt.1 (hascii b hb)
  rw [Ascii.toNat_byteChar]
  refine ⟨hlt, ?_⟩
  intro heq
  have hbyte : Ascii.byteChar kSOH = '\x01' := by decide
  rw [Ascii.byteChar_eq_iff hbyte] at heq
  exact hsoh (heq ▸ hb)

/-- The texts of an order that go into its report. -/
def ParsedOrder.texts (order : ParsedOrder) : List String :=
  [order.senderCompId, order.clOrdId, order.symbol, order.side, order.account, order.orderQtyRaw,
    order.priceRaw]

/-- **What the scanner read can be answered.** -/
theorem clean_order {raw : List UInt8} (h : scanNewOrderSingle raw = .ok order) :
    ∀ text ∈ order.texts, Clean text := by
  obtain ⟨hdecodable, -, -, qty, price, -, -, rfl⟩ := python_ok_iff.1 h
  have hclean : ∀ tag, Clean (Ascii.text ((pythonReading raw tag).getD [])) := by
    intro tag
    refine clean_text (fun b hb => ?_) (soh_notMem_lastOf _ raw)
    obtain ⟨f, hf, hb⟩ := mem_lastOf hb
    exact hdecodable.ascii b (mem_of_mem_splitOn hf hb)
  simp only [ParsedOrder.texts, List.forall_mem_cons]
  exact ⟨hclean 49, hclean 11, hclean 55, hclean 54, hclean 1, hclean 38, hclean 44, nofun⟩

/-! ## Reasons -/

theorem rejection_of_load {native : Bool} {db : Hitl.Store} {id : Nat} {compiledRule : Hitl.CompiledRule}
    {policy : LoadedFixPolicy} (h : buildLoadedPolicy native db id compiledRule = .ok policy) :
    ∃ numChecks, policy.rejection = buildRejectionReason db compiledRule numChecks := by
  unfold buildLoadedPolicy at h
  split at h
  · cases h
  · split at h
    · cases h
    · split at h
      · cases h
      · cases h
      · dsimp only at h
        split at h
        · cases h
        · split at h
          · cases h
          · cases h
            exact ⟨_, rfl⟩

/-- The text and the reference of a reason are clean when its three parts are. -/
theorem clean_reason_iff {reason : SebiRejectionReason} {db : Hitl.Store}
    {compiledRule : Hitl.CompiledRule} {numChecks : Nat}
    (h : reason = buildRejectionReason db compiledRule numChecks) :
    (Clean reason.text ∧ Clean reason.clauseRef) ↔
      Clean compiledRule.ruleId ∧ Clean reason.sebiCircularNumber ∧
        Clean (formatOption reason.sebiClauseNumber) := by
  have hliterals : Clean "Order rejected: does not satisfy compiled rule " ∧ Clean " (" ∧
      Clean " threshold check(s)), Circular " ∧ Clean ", Clause " ∧ Clean "." ∧ Clean ":" := by
    decide +kernel
  obtain ⟨hstart, hopen, hcircular, hclause, hdot, hcolon⟩ := hliterals
  have htext : Clean reason.text ↔ Clean compiledRule.ruleId ∧ Clean reason.sebiCircularNumber ∧
      Clean (formatOption reason.sebiClauseNumber) := by
    have hspelled : reason.text = "Order rejected: does not satisfy compiled rule " ++
        compiledRule.ruleId ++ " (" ++ toString numChecks ++ " threshold check(s)), Circular " ++
        reason.sebiCircularNumber ++ ", Clause " ++ formatOption reason.sebiClauseNumber ++ "." := by
      rw [h]
      rfl
    rw [hspelled]
    simp only [clean_append, hstart, hopen, hcircular, hclause, hdot, clean_toString numChecks, and_true,
      true_and, and_assoc]
  rw [htext, SebiRejectionReason.clauseRef, clean_append, clean_append]
  constructor
  · exact fun h => h.1
  · exact fun h => ⟨h, ⟨h.2.1, hcolon⟩, h.2.2⟩

/-! ## Both builders -/

/-- UTF-8 of an ASCII text. -/
theorem encode_eq_ascii {s : String} (h : AsciiText s) : encode s = ascii s := by
  rw [encode, ascii, List.map_eq_flatMap]
  apply List.flatMap_congr
  intro c hc
  have hlt := h c hc
  rw [String.utf8EncodeChar]
  exact if_pos (Nat.le_of_lt_succ hlt)

theorem soh_notMem_encode {s : String} (h : Clean s) : kSOH ∉ encode s := by
  rw [encode_eq_ascii h.ascii]
  exact (clean_iff.1 h).2

/-- What the native builder is given for the same outcome. -/
def nativeInput (fields : NewOrderSingleFields) (outcome : ValidationOutcome)
    (ctx : ExecutionReportContext) : ExecutionReportInput where
  senderCompId := encode ctx.senderCompId
  targetCompId := fields.senderCompId
  sendingTime := encode ctx.sendingTime
  clOrdId := fields.clOrdId
  orderId := ascii "NONE"
  execId := encode ctx.execId
  symbol := fields.symbol
  side := fields.side
  orderQtyRaw := fields.orderQtyRaw
  priceRaw := fields.priceRaw
  accepted := outcome.accepted
  ordRejReason := (outcome.violatedReason.map fun reason => Int32.ofNat reason.ordRejReason.code).getD 99
  rejectionText := (outcome.violatedReason.map fun reason => encode reason.text).getD []
  sebiClauseRef := (outcome.violatedReason.map fun reason => encode reason.clauseRef).getD []

/-- Both reports on an order are returned and read back; the native one when its arrays have room. -/
structure ReportsFaithfully (raw : List UInt8) (order : ParsedOrder) (outcome : ValidationOutcome)
    (ctx : ExecutionReportContext) : Prop where
  python : ∃ report, buildExecutionReport order outcome ctx = some report ∧
    Faithful ((reportFields order outcome ctx).map bytesOf) report
  native : ∀ fields capacity, Native.Fix.scanNewOrderSingle raw = (.ok, fields) →
    bodyLength (nativeInput fields outcome ctx) ≤ kBodySize →
    bodyLength (nativeInput fields outcome ctx) + 32 ≤ capacity →
    ∃ report, Native.Fix.buildExecutionReport (nativeInput fields outcome ctx) capacity = .ok report ∧
      Faithful (nativeFields (nativeInput fields outcome ctx)) report.bytes

/-- The context is clean. -/
structure CleanContext (ctx : ExecutionReportContext) : Prop where
  senderCompId : Clean ctx.senderCompId
  sendingTime : Clean ctx.sendingTime
  execId : Clean ctx.execId

/-- The values of a report are clean when those that were not scanned are. -/
theorem clean_reportFields_iff {raw : List UInt8} (h : scanNewOrderSingle raw = .ok order) :
    (∀ f ∈ reportFields order outcome ctx, Clean f.2) ↔
      CleanContext ctx ∧ (outcome.accepted = false → ∀ reason ∈ outcome.violatedReason,
        Clean reason.text ∧ Clean reason.clauseRef) := by
  have horder := clean_order h
  simp only [ParsedOrder.texts, List.forall_mem_cons] at horder
  obtain ⟨hsender, hid, hsymbol, hside, haccount, hqty, hprice, -⟩ := horder
  have hstatus : Clean (statusText outcome) := by
    unfold statusText
    split
    · decide
    · decide
  have hleaves : Clean (if outcome.accepted then order.orderQtyRaw else toString 0) := by
    split
    · exact hqty
    · exact clean_toString 0
  have hmsgType : Clean "8" := by decide
  have hnone : Clean "NONE" := by decide
  have hreason : (∀ f ∈ reasonFields outcome, Clean f.2) ↔
      (outcome.accepted = false → ∀ reason ∈ outcome.violatedReason,
        Clean reason.text ∧ Clean reason.clauseRef) := by
    obtain ⟨accepted, reason⟩ := outcome
    cases accepted with
    | true => exact iff_of_true (fun f hf => by cases hf) nofun
    | false =>
      cases reason with
      | none => exact iff_of_true (fun f hf => by cases hf) fun _ reason hreason => by cases hreason
      | some reason =>
        show (∀ f ∈ [(103, toString reason.ordRejReason.code), (58, reason.text),
          (9001, reason.clauseRef)], Clean f.2) ↔ _
        have hcode := clean_toString reason.ordRejReason.code
        rw [List.forall_mem_cons, List.forall_mem_cons, List.forall_mem_singleton]
        exact ⟨fun h _ r hr => Option.some.inj hr ▸ h.2, fun h => ⟨hcode, h rfl reason rfl⟩⟩
  unfold reportFields
  rw [List.forall_mem_append, hreason]
  refine and_congr_left fun _ => ?_
  simp only [List.forall_mem_cons]
  constructor
  · intro ⟨_, hsenderCompId, _, hsendingTime, _, _, hexecId, _⟩
    exact ⟨hsenderCompId, hsendingTime, hexecId⟩
  · intro hctx
    exact ⟨hmsgType, hctx.senderCompId, hsender, hctx.sendingTime, hnone, hid, hctx.execId, hstatus,
      hstatus, hsymbol, hside, haccount, hqty, hprice, clean_toString 0, hleaves, nofun⟩

/-- Clean texts make clean native fields. -/
theorem soh_notMem_nativeFields {raw : List UInt8} {fields : NewOrderSingleFields}
    (hscan : Native.Fix.scanNewOrderSingle raw = (.ok, fields)) (hctx : CleanContext ctx)
    (hreason : outcome.accepted = false → ∀ reason ∈ outcome.violatedReason,
      Clean reason.text ∧ Clean reason.clauseRef) :
    ∀ f ∈ nativeFields (nativeInput fields outcome ctx), kSOH ∉ f.2 := by
  have hok : (Native.Fix.scanNewOrderSingle raw).1 = .ok := by rw [hscan]
  obtain ⟨orderQty, price, hview, -, -⟩ := Native.Fix.scan_fields hok
  have hfields : fields = (Native.Fix.viewOf (Native.Fix.cppReading raw) orderQty price).out := by
    rw [← hview, hscan]
  have hread : ∀ tag, kSOH ∉ (Native.Fix.cppReading raw tag).getD [] :=
    fun tag => soh_notMem_lastOf _ raw
  have hzero : kSOH ∉ ascii "0" := by decide
  have hstatus : kSOH ∉ [Native.Fix.statusChar outcome.accepted] := by
    cases outcome.accepted with
    | true => decide
    | false => decide
  have hmsgType : kSOH ∉ ascii "8" := by decide
  have hnone : kSOH ∉ ascii "NONE" := by decide
  unfold nativeFields
  rw [List.forall_mem_append]
  constructor
  · simp only [List.forall_mem_cons]
    have hqty : kSOH ∉ fields.orderQtyRaw := by
      rw [hfields]
      exact hread 38
    have hleaves : kSOH ∉ if outcome.accepted then fields.orderQtyRaw else ascii "0" := by
      split
      · exact hqty
      · exact hzero
    have hslices : kSOH ∉ fields.senderCompId ∧ kSOH ∉ fields.clOrdId ∧ kSOH ∉ fields.symbol ∧
        kSOH ∉ fields.side ∧ kSOH ∉ fields.priceRaw := by
      rw [hfields]
      exact ⟨hread 49, hread 11, hread 55, hread 54, hread 44⟩
    obtain ⟨hsender, hid, hsymbol, hside, hprice⟩ := hslices
    exact ⟨hmsgType, soh_notMem_encode hctx.senderCompId, hsender, soh_notMem_encode hctx.sendingTime,
      hnone, hid, soh_notMem_encode hctx.execId, hstatus, hstatus, hsymbol, hside, hqty, hprice, hzero,
      hleaves, nofun⟩
  · have haccepted : (nativeInput fields outcome ctx).accepted = outcome.accepted := rfl
    rw [haccepted]
    split
    · exact fun f hf => by cases hf
    · rename_i hrejected
      have htexts : kSOH ∉ (outcome.violatedReason.map fun reason => encode reason.text).getD [] ∧
          kSOH ∉ (outcome.violatedReason.map fun reason => encode reason.clauseRef).getD [] := by
        cases hviolated : outcome.violatedReason with
        | none => exact ⟨List.not_mem_nil, List.not_mem_nil⟩
        | some reason =>
          obtain ⟨htext, href⟩ := hreason (Bool.not_eq_true _ ▸ hrejected) reason hviolated
          exact ⟨soh_notMem_encode htext, soh_notMem_encode href⟩
      simp only [List.forall_mem_cons]
      refine ⟨fun hmem => ?_, htexts.1, htexts.2, nofun⟩
      cases decimal_digit _ kSOH hmem

/-- **Both reports are faithful just when the values that were not scanned are ASCII without the
delimiter.** -/
theorem report_faithful_iff {raw : List UInt8} (hscan : scanNewOrderSingle raw = .ok order)
    {native : Bool} {db : Hitl.Store} {id : Nat} {compiledRule : Hitl.CompiledRule}
    {policy : LoadedFixPolicy} (hload : buildLoadedPolicy native db id compiledRule = .ok policy)
    (hreason : ∀ reason ∈ outcome.violatedReason, reason = policy.rejection) :
    ReportsFaithfully raw order outcome ctx ↔
      CleanContext ctx ∧ (outcome.accepted = false → outcome.violatedReason ≠ none →
        Clean compiledRule.ruleId ∧ Clean policy.rejection.sebiCircularNumber ∧
          Clean (formatOption policy.rejection.sebiClauseNumber)) := by
  obtain ⟨numChecks, hrejection⟩ := rejection_of_load hload
  have hparts := clean_reason_iff hrejection
  have hcondition : (outcome.accepted = false → ∀ reason ∈ outcome.violatedReason,
      Clean reason.text ∧ Clean reason.clauseRef) ↔
      (outcome.accepted = false → outcome.violatedReason ≠ none →
        Clean compiledRule.ruleId ∧ Clean policy.rejection.sebiCircularNumber ∧
          Clean (formatOption policy.rejection.sebiClauseNumber)) := by
    refine imp_congr_right fun _ => ?_
    rw [← hparts]
    constructor
    · intro h hviolated
      obtain ⟨reason, hsome⟩ := Option.ne_none_iff_exists'.1 hviolated
      rw [← hreason reason hsome]
      exact h reason hsome
    · intro h reason hsome
      rw [hreason reason hsome]
      refine h ?_
      rw [hsome]
      exact nofun
  rw [← hcondition, ← clean_reportFields_iff hscan]
  constructor
  · intro h
    exact python_faithful_iff.1 h.python
  · intro h
    refine ⟨python_faithful_iff.2 h, fun fields capacity hnative hbody hroom => ?_⟩
    obtain ⟨hctx, hclean⟩ := (clean_reportFields_iff hscan).1 h
    obtain ⟨report, hok, hbytes⟩ := native_framed hbody hroom
    refine ⟨report, hok, ?_⟩
    rw [hbytes, faithful_iff]
    exact soh_notMem_nativeFields hnative hctx hclean

/-! ## A rule identifier that is not ASCII -/

/-- `35=D`, `11=A`, `38=1`, `44=2`. -/
def smallMessage : List UInt8 :=
  ascii "35=D" ++ [kSOH] ++ (ascii "11=A" ++ [kSOH]) ++ (ascii "38=1" ++ [kSOH]) ++ ascii "44=2"

def smallOrder : ParsedOrder where
  senderCompId := ""
  targetCompId := ""
  msgSeqNum := ""
  clOrdId := "A"
  account := ""
  symbol := ""
  side := ""
  orderQty := .ofRat 1
  price := .ofRat 2
  orderQtyRaw := "1"
  priceRaw := "2"

def smallContext : ExecutionReportContext := ⟨"REGENGINE", "20260101-12:00:00.000", "1"⟩

theorem scan_smallMessage : scanNewOrderSingle smallMessage = .ok smallOrder := by decide +kernel

theorem load_qtyRule : ∃ policy, buildLoadedPolicy true qtyDb 1 qtyRule = .ok policy := by
  have hload : (buildLoadedPolicy true qtyDb 1 qtyRule).toBool = true := by decide +kernel
  cases h : buildLoadedPolicy true qtyDb 1 qtyRule with
  | ok policy => exact ⟨policy, rfl⟩
  | error e =>
    rw [h] at hload
    cases hload

/-- A rejection of the small order by the limit. -/
theorem report_faithful_small : ∃ policy, buildLoadedPolicy true qtyDb 1 qtyRule = .ok policy ∧
    (ReportsFaithfully smallMessage smallOrder ⟨false, some policy.rejection⟩ smallContext ↔
      CleanContext smallContext ∧ (false = false → some policy.rejection ≠ none →
        Clean qtyRule.ruleId ∧ Clean policy.rejection.sebiCircularNumber ∧
          Clean (formatOption policy.rejection.sebiClauseNumber))) := by
  obtain ⟨policy, hload⟩ := load_qtyRule
  exact ⟨policy, hload, report_faithful_iff scan_smallMessage hload
    fun reason hreason => (Option.some.inj hreason).symm⟩

/-- The limit under an identifier with an accent. -/
def accentRule : Hitl.CompiledRule := { qtyRule with ruleId := "règle" }

theorem load_accentRule : ∃ policy, buildLoadedPolicy true qtyDb 1 accentRule = .ok policy := by
  have hload : (buildLoadedPolicy true qtyDb 1 accentRule).toBool = true := by decide +kernel
  cases h : buildLoadedPolicy true qtyDb 1 accentRule with
  | ok policy => exact ⟨policy, rfl⟩
  | error e =>
    rw [h] at hload
    cases hload

/-- A rejection under it is not answered. -/
theorem not_forall_reportsFaithfully :
    ¬ ∀ (raw : List UInt8) (order : ParsedOrder) (native : Bool) (db : Hitl.Store) (id : Nat)
        (compiledRule : Hitl.CompiledRule) (policy : LoadedFixPolicy) (outcome : ValidationOutcome),
      scanNewOrderSingle raw = .ok order → buildLoadedPolicy native db id compiledRule = .ok policy →
      (∀ reason ∈ outcome.violatedReason, reason = policy.rejection) →
      ReportsFaithfully raw order outcome smallContext := by
  intro h
  obtain ⟨policy, hload⟩ := load_accentRule
  have hfaithful := h _ _ _ _ _ _ _ ⟨false, some policy.rejection⟩ scan_smallMessage hload
    fun reason hreason => (Option.some.inj hreason).symm
  have hclean := (clean_reportFields_iff scan_smallMessage).1 (python_faithful_iff.1 hfaithful.python)
  obtain ⟨numChecks, hrejection⟩ := rejection_of_load hload
  have hid := ((clean_reason_iff hrejection).1 (hclean.2 rfl _ rfl)).1
  have haccent : ¬ Clean accentRule.ruleId := by decide
  exact haccent hid

end RegEngine.FixGateway
