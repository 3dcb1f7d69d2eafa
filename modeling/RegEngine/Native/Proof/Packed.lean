import RegEngine.Native.Proof.Admission
import RegEngine.Native.Proof.Kernel

/-!
# Any tree that is packed

What the packing of a tree means, read off the tree itself: its comparisons in order, however conjunctions
nest, and the hash of its last entity clause. Loading gives them back. The identifier comes back too, but
one that fills its array has no terminator behind it.

* `standsFor_flattenChecks`: the checks of a node and their slots.
* `loadPolicy_prefix`: a packed policy that is cut off anywhere is rejected as truncated.
* `round_trip_iff`: when loading gives back what was packed.
-/

namespace RegEngine.Native

open Lib Lib.Python Lib.Except

/-! ## The checks of a tree -/

/-- A comparison of a fact with a number. -/
structure TreeCheck where
  fact : String
  code : Nat
  value : Binary64

/-- The comparison of a node: under the first of the operators that it has. -/
def nodeCheck (node : Json) : Option TreeCheck := do
  let (op, code) ← operatorCodes.find? fun o => (Json.str o.1).pyIn node = some true
  match node.get? op with
  | some (.arr [left, right]) =>
    match left.get? "var", (toFloat right).toOption with
    | some (.str path), some value => some ⟨String.ofList (path.toList.drop 6), code, value⟩
    | _, _ => none
  | _ => none

mutual

/-- The comparisons of a node, in order. -/
def treeChecks : Json → List TreeCheck
  | .obj fields =>
    if "and" ∈ fields.map (·.1) then andChecks fields else (nodeCheck (.obj fields)).toList
  | _ => []

def andChecks : List (String × Json) → List TreeCheck
  | [] => []
  | (key, value) :: fields => if key = "and" then childChecks value else andChecks fields

def childChecks : Json → List TreeCheck
  | .arr items => itemChecks items
  | _ => []

def itemChecks : List Json → List TreeCheck
  | [] => []
  | item :: items => treeChecks item ++ itemChecks items

end

/-- The hash of an entity clause. -/
def entityClause? (node : Json) : Option Nat :=
  match extractEntityTypeHash node with
  | .ok (hash, none) => if hash ≠ 0 then some hash else none
  | _ => none

def children (logic : Json) : Option (List Json) :=
  (logic.get? "and").bind fun c => (iterate c).toOption

/-- The hash of the last entity clause, or 0. -/
def logicHash (logic : Json) : Nat :=
  match children logic with
  | some items => ((items.filterMap entityClause?).getLast?).getD 0
  | none => (entityClause? logic).getD 0

/-- The comparisons of a tree; an entity clause is none. -/
def logicChecks (logic : Json) : List TreeCheck :=
  match children logic with
  | some items => itemChecks (items.filter fun c => (entityClause? c).isNone)
  | none =>
    match extractEntityTypeHash logic with
    | .ok (_, none) => []
    | _ => treeChecks logic

/-! ## Flattening -/

/-- The packed check stands for the comparison. -/
structure StandsFor (slots : List (String × Nat)) (c : TreeCheck) (check : PackedCheck) : Prop where
  slot : (c.fact, check.slot) ∈ slots
  code : check.code = c.code
  value : check.value = c.value
  fits : c.code < 256

theorem StandsFor.mono {slots slots' : List (String × Nat)} (hsub : ∀ p ∈ slots, p ∈ slots')
    {c : TreeCheck} {check : PackedCheck} (h : StandsFor slots c check) : StandsFor slots' c check :=
  ⟨hsub _ h.slot, h.code, h.value, h.fits⟩

theorem operatorCodes_lt {op : String} {code : Nat} (h : (op, code) ∈ operatorCodes) : code < 256 := by
  have hall : ∀ o ∈ operatorCodes, o.2 < 256 := by decide
  exact hall _ h

/-- The checks stand for the comparisons, and every slot is that of a fact they name. -/
structure PacksTree (packing : Packing) (cs : List TreeCheck) : Prop where
  checks : List.Forall₂ (StandsFor packing.resolver.slots) cs packing.checks
  named : ∀ p ∈ packing.resolver.slots, ∃ c ∈ cs, c.fact = p.1

theorem packsTree_nil : PacksTree {} [] := ⟨.nil, fun _ hp => by cases hp⟩

variable {packing packing' : Packing} {cs : List TreeCheck}

theorem resolve_path {resolver resolver' : FieldSlotResolver} {path : String} {slot : Nat}
    (h : resolver.resolve path = .ok (resolver', slot)) :
    path = "facts." ++ String.ofList (path.toList.drop 6) := by
  have hbegin : "facts.".toList <+: path.toList := by
    by_contra hnot
    have hfalse : ¬ startsWith path "facts." = true := fun hs => hnot (startsWith_iff.1 hs)
    unfold FieldSlotResolver.resolve at h
    rw [if_pos hfalse] at h
    cases h
  obtain ⟨rest, hrest⟩ := hbegin
  rw [← String.toList_inj, String.toList_append, String.toList_ofList, ← hrest]
  simp

/-- **A comparison adds its check.** -/
theorem PacksTree.append (h : PacksTree packing cs) {node operands : Json} {op : String} {code : Nat}
    (hfind : operatorCodes.find? (fun o => (Json.str o.1).pyIn node = some true) = some (op, code))
    (hget : node.get? op = some operands)
    (happend : appendCheck packing op code operands = .ok packing') :
    PacksTree packing' (cs ++ (nodeCheck node).toList) := by
  unfold appendCheck at happend
  split at happend
  · rename_i left right
    split at happend
    · cases happend
    · rename_i path hpath
      dsimp only at happend
      split at happend
      · cases happend
      split at happend
      · rename_i varPath
        obtain ⟨⟨resolver, slot⟩, hresolve, happend⟩ := bind_ok_iff.1 happend
        obtain ⟨value, hvalue, happend⟩ := bind_ok_iff.1 happend
        cases happend
        have hcheck : nodeCheck node =
            some ⟨String.ofList (varPath.toList.drop 6), code, value⟩ := by
          unfold nodeCheck
          rw [hfind]
          show (match node.get? op with
            | some (.arr [left, right]) =>
              match left.get? "var", (toFloat right).toOption with
              | some (.str path), some value =>
                some (TreeCheck.mk (String.ofList (path.toList.drop 6)) code value)
              | _, _ => none
            | _ => none) = _
          rw [hget]
          dsimp only
          rw [hpath, hvalue]
          rfl
        rw [hcheck, Option.toList_some]
        rw [resolve_path hresolve] at hresolve
        obtain ⟨hslot, hkept, hnew⟩ := FieldSlotResolver.resolve_ok hresolve
        constructor
        · have hadded : StandsFor resolver.slots
              ⟨String.ofList (varPath.toList.drop 6), code, value⟩ ⟨slot, code, value⟩ :=
            ⟨hslot, rfl, rfl, operatorCodes_lt (List.mem_of_find?_eq_some hfind)⟩
          exact List.rel_append (h.checks.imp fun _ _ hcheck => hcheck.mono hkept) (.cons hadded .nil)
        · intro p hp
          cases hnew p hp with
          | inl hold =>
            obtain ⟨c', hc', hfact⟩ := h.named p hold
            exact ⟨c', List.mem_append_left _ hc', hfact⟩
          | inr hfact =>
            exact ⟨⟨String.ofList (varPath.toList.drop 6), code, value⟩,
              List.mem_append_right _ (List.mem_singleton.2 rfl), hfact.symm⟩
      · cases happend
  · cases happend

/-- The loop over the operators stops at the first one that the node has. -/
theorem flattenOperators_ok {node : Json} : ∀ {codes : List (String × Nat)},
    flattenOperators packing node codes = .ok packing' →
    ∃ op code operands, codes.find? (fun o => (Json.str o.1).pyIn node = some true) = some (op, code) ∧
      node.get? op = some operands ∧ appendCheck packing op code operands = .ok packing'
  | [], h => by cases h
  | (op, code) :: rest, h => by
    unfold flattenOperators at h
    split at h
    · cases h
    · rename_i hin
      obtain ⟨op', code', operands, hfind, hget⟩ := flattenOperators_ok h
      exact ⟨op', code', operands, by rw [List.find?_cons_of_neg (by simp [hin])]; exact hfind, hget⟩
    · rename_i hin
      split at h
      · cases h
      · rename_i operands hget
        exact ⟨op, code, operands, List.find?_cons_of_pos (by simp [hin]), hget, h⟩

/-- A node that is not a dictionary is refused. -/
theorem flattenOther_ne_ok {node : Json} (hnode : ∀ key, node.get? key = none) :
    flattenOther packing node ≠ .ok packing' := by
  intro h
  unfold flattenOther at h
  split at h
  · obtain ⟨op, code, operands, -, hget, -⟩ := flattenOperators_ok h
    rw [hnode op] at hget
    cases hget
  · cases h

theorem foldlM_flattenOther {α : Type} {f : α → Json} (hf : ∀ a key, (f a).get? key = none) {l : List α}
    (h : l.foldlM (fun packing a => flattenOther packing (f a)) packing = .ok packing') :
    packing' = packing := by
  cases l with
  | nil =>
    cases h
    rfl
  | cons a l =>
    rw [List.foldlM_cons] at h
    obtain ⟨middle, hmiddle, -⟩ := bind_ok_iff.1 h
    exact absurd hmiddle (flattenOther_ne_ok (hf a))

mutual

/-- **The checks of a node and their slots.** -/
theorem standsFor_flattenChecks (node : Json) {packing packing' : Packing} {cs : List TreeCheck}
    (h : PacksTree packing cs) (hflatten : flattenChecks packing node = .ok packing') :
    PacksTree packing' (cs ++ treeChecks node) := by
  cases node with
  | obj fields =>
    rw [flattenChecks] at hflatten
    rw [treeChecks]
    split at hflatten
    · rename_i hand
      rw [if_pos hand]
      exact standsFor_flattenAnd fields h hflatten
    · rename_i hand
      rw [if_neg hand]
      obtain ⟨op, code, operands, hfind, hget, happend⟩ := flattenOperators_ok hflatten
      exact h.append hfind hget happend
  | null | bool | int | float | str | arr =>
    rw [flattenChecks] at hflatten
    · exact absurd hflatten (flattenOther_ne_ok fun _ => rfl)
    · rintro _ ⟨⟩

theorem standsFor_flattenAnd (fields : List (String × Json)) {packing packing' : Packing}
    {cs : List TreeCheck} (h : PacksTree packing cs)
    (hflatten : flattenAnd packing fields = .ok packing') :
    PacksTree packing' (cs ++ andChecks fields) := by
  cases fields with
  | nil =>
    cases hflatten
    rwa [andChecks, List.append_nil]
  | cons f fields =>
    obtain ⟨key, value⟩ := f
    rw [flattenAnd] at hflatten
    rw [andChecks]
    split at hflatten
    · rename_i hkey
      rw [if_pos hkey]
      exact standsFor_flattenChildren value h hflatten
    · rename_i hkey
      rw [if_neg hkey]
      exact standsFor_flattenAnd fields h hflatten

theorem standsFor_flattenChildren (value : Json) {packing packing' : Packing} {cs : List TreeCheck}
    (h : PacksTree packing cs) (hflatten : flattenChildren packing value = .ok packing') :
    PacksTree packing' (cs ++ childChecks value) := by
  cases value with
  | arr items => exact standsFor_flattenItems items h hflatten
  | obj fields =>
    rw [flattenChildren] at hflatten
    rw [foldlM_flattenOther (fun _ _ => rfl) hflatten, childChecks, List.append_nil]
    · exact h
    · rintro _ ⟨⟩
  | str s =>
    rw [flattenChildren] at hflatten
    rw [foldlM_flattenOther (fun _ _ => rfl) hflatten, childChecks, List.append_nil]
    · exact h
    · rintro _ ⟨⟩
  | _ => cases hflatten

theorem standsFor_flattenItems (items : List Json) {packing packing' : Packing} {cs : List TreeCheck}
    (h : PacksTree packing cs) (hflatten : flattenItems packing items = .ok packing') :
    PacksTree packing' (cs ++ itemChecks items) := by
  cases items with
  | nil =>
    cases hflatten
    rwa [itemChecks, List.append_nil]
  | cons item items =>
    obtain ⟨middle, hmiddle, hrest⟩ := bind_ok_iff.1 hflatten
    have hitem := standsFor_flattenChecks item h hmiddle
    have hitems := standsFor_flattenItems items hitem hrest
    rwa [itemChecks, ← List.append_assoc]

end

/-! ## Trees -/

/-- An entity clause has a hash and nothing to flatten; another child is flattened. -/
theorem scanChildren_ok : ∀ {items others : List Json} {hash₀ hash : Nat},
    scanChildren hash₀ items = .ok (hash, others) →
    hash = ((items.filterMap entityClause?).getLast?).getD hash₀ ∧
      others = items.filter fun c => (entityClause? c).isNone
  | [], _, _, _, h => by
    cases h
    exact ⟨rfl, rfl⟩
  | item :: items, others, hash₀, hash, h => by
    obtain ⟨⟨hash', rest⟩, hextract, h⟩ := bind_ok_iff.1 h
    dsimp only at h
    split at h
    · rename_i hentity
      obtain ⟨hne, hrest⟩ := hentity
      obtain rfl := Option.isNone_iff_eq_none.1 hrest
      have hclause : entityClause? item = some hash' := by
        unfold entityClause?
        rw [hextract]
        exact if_pos hne
      obtain ⟨hlast, hothers⟩ := scanChildren_ok h
      refine ⟨?_, ?_⟩
      · rw [List.filterMap_cons_some hclause, List.getLast?_cons]
        exact hlast
      · rw [List.filter_cons_of_neg (by simp [hclause])]
        exact hothers
    · rename_i hentity
      have hclause : entityClause? item = none := by
        unfold entityClause?
        rw [hextract]
        split
        · rename_i heq
          cases heq
          exact if_neg fun hne => hentity ⟨hne, rfl⟩
        · rfl
      obtain ⟨⟨hash'', others'⟩, hscan, h⟩ := bind_ok_iff.1 h
      cases h
      obtain ⟨hlast, hothers⟩ := scanChildren_ok hscan
      refine ⟨?_, ?_⟩
      · rw [List.filterMap_cons_none hclause]
        exact hlast
      · rw [List.filter_cons_of_pos (by simp [hclause]), hothers]

theorem logicHash_lt (logic : Json) : logicHash logic < 2 ^ 32 := by
  have hclause : ∀ (node : Json) (hash : Nat), entityClause? node = some hash → hash < 2 ^ 32 := by
    intro node hash h
    unfold entityClause? at h
    split at h
    · rename_i hash' hextract
      split at h
      · cases h
        unfold extractEntityTypeHash at hextract
        split at hextract
        · split at hextract
          · split at hextract
            · split at hextract
              · cases hextract
                exact fnv1a_lt _
              · cases hextract
            · cases hextract
          · cases hextract
        · cases hextract
      · cases h
    · cases h
  have hgetD : ∀ o : Option Nat, (∀ hash ∈ o, hash < 2 ^ 32) → o.getD 0 < 2 ^ 32 := by
    intro o ho
    cases o with
    | none => decide
    | some hash => exact ho hash rfl
  unfold logicHash
  split
  · refine hgetD _ fun hash hhash => ?_
    obtain ⟨node, -, hnode⟩ := List.mem_filterMap.1 (List.mem_of_getLast? hhash)
    exact hclause node hash hnode
  · exact hgetD _ fun hash hhash => hclause logic hash hhash

/-- **What a tree is packed into.** -/
theorem packsTree_flattenLogic {logic : Json} {hash : Nat} {packing : Packing}
    (h : flattenLogic logic = .ok (hash, packing)) :
    hash = logicHash logic ∧ PacksTree packing (logicChecks logic) := by
  unfold flattenLogic at h
  split at h
  · rename_i c hand
    obtain ⟨items, hitems, h⟩ := bind_ok_iff.1 h
    obtain ⟨⟨hash', others⟩, hscan, h⟩ := bind_ok_iff.1 h
    obtain ⟨packing', hflatten, h⟩ := bind_ok_iff.1 h
    cases h
    have hchildren : children logic = some items := by
      unfold children
      rw [hand, Option.bind_some, hitems]
      rfl
    obtain ⟨hlast, rfl⟩ := scanChildren_ok hscan
    refine ⟨?_, ?_⟩
    · unfold logicHash
      rw [hchildren]
      exact hlast
    · unfold logicChecks
      rw [hchildren]
      exact standsFor_flattenItems _ packsTree_nil hflatten
  · rename_i hand
    have hchildren : children logic = none := by
      unfold children
      rw [hand]
      rfl
    obtain ⟨⟨hash', remainder⟩, hextract, h⟩ := bind_ok_iff.1 h
    cases remainder with
    | none =>
      cases h
      refine ⟨?_, ?_⟩
      · unfold logicHash entityClause?
        rw [hchildren, hextract]
        dsimp only
        split
        · rfl
        · rename_i hzero
          exact not_not.1 hzero
      · unfold logicChecks
        rw [hchildren, hextract]
        exact packsTree_nil
    | some node =>
      obtain ⟨packing', hflatten, h⟩ := bind_ok_iff.1 h
      cases h
      have hkept : hash = 0 ∧ node = logic := by
        unfold extractEntityTypeHash at hextract
        split at hextract
        · split at hextract
          · split at hextract
            · split at hextract
              · cases hextract
              · cases hextract
                exact ⟨rfl, rfl⟩
            · cases hextract
              exact ⟨rfl, rfl⟩
          · cases hextract
            exact ⟨rfl, rfl⟩
        · cases hextract
      obtain ⟨rfl, rfl⟩ := hkept
      refine ⟨?_, ?_⟩
      · unfold logicHash entityClause?
        rw [hchildren, hextract]
        rfl
      · unfold logicChecks
        rw [hchildren, hextract]
        exact standsFor_flattenChecks _ packsTree_nil hflatten

/-! ## A cut policy -/

/-- **A packed policy that is cut off anywhere is truncated.** -/
theorem loadPolicy_prefix {ruleId : List UInt8} {hash : Nat} {packed : List PackedCheck}
    {data : List UInt8} (hid : ruleId.length ≤ ruleIdMaxLen) (hhash : hash < 2 ^ 32)
    (hnum : packed.length ≤ maxChecksPerPolicy)
    (hbegin : data <+: packHeader ruleId.length hash packed.length ++ ruleId ++ packed.flatMap packCheck)
    (hproper : data ≠ packHeader ruleId.length hash packed.length ++ ruleId ++ packed.flatMap packCheck) :
    (loadPolicy data).1 = .truncated := by
  have hrecords : (packed.flatMap packCheck).length = packed.length * checkSize := by
    simp [List.length_flatMap]
  have hshort : data.length < headerSize + ruleId.length + packed.length * checkSize := by
    have hlt := hbegin.length_le.lt_of_ne fun heq => hproper (hbegin.eq_of_length heq)
    rwa [List.length_append, List.length_append, length_packHeader, hrecords] at hlt
  by_cases hlen : data.length < headerSize
  · rw [loadPolicy, if_pos hlen]
  -- the header is there: it is the one that was packed
  have hheader : readHeader data =
      ⟨kRpkbMagic, kRpkbFormatVersion, ruleId.length, UInt32.ofNat hash, packed.length⟩ := by
    have hstart : packHeader ruleId.length hash packed.length <+: data := by
      refine List.prefix_of_prefix_length_le ?_ hbegin ?_
      · rw [List.append_assoc]
        exact List.prefix_append _ _
      · rw [length_packHeader]
        exact Nat.not_lt.1 hlen
    obtain ⟨rest, rfl⟩ := hstart
    refine readHeader_packHeader (Nat.lt_of_le_of_lt hid (by decide)) hhash ?_ rest
    exact Nat.lt_of_le_of_lt hnum (by decide)
  have hmagic : (readHeader data).magic = kRpkbMagic := by rw [hheader]
  have hversion : (readHeader data).formatVersion = kRpkbFormatVersion := by rw [hheader]
  have hlong : ¬ kRuleIdMaxLen < (readHeader data).ruleIdLen := by
    rw [hheader]
    exact Nat.not_lt.2 hid
  have hmany : ¬ kMaxChecksPerPolicy < (readHeader data).numChecks := by
    rw [hheader]
    exact Nat.not_lt.2 hnum
  have hcut : data.length <
      headerSize + (readHeader data).ruleIdLen + (readHeader data).numChecks * checkSize := by
    rw [hheader]
    exact hshort
  unfold loadPolicy
  rw [if_neg hlen]
  dsimp only
  rw [if_neg (not_not.2 hmagic), if_neg (not_not.2 hversion), dif_neg hlong, dif_neg hmany, if_pos hcut]

/-! ## There and back -/

/-- The check that is loaded for a comparison. -/
structure Loaded (slots : List (String × Nat)) (c : TreeCheck) (check : ThresholdCheck) : Prop where
  slot : (c.fact, check.fieldSlot.val) ∈ slots
  code : check.op.toNat = c.code
  threshold : check.threshold = c.value

/-- Loading the bytes gives back what was packed. -/
structure RoundTrips (ruleId : String) (logic : Json) (bytes : List UInt8)
    (slots : List (String × Nat)) : Prop where
  ok : (loadPolicy bytes).1 = .ok
  /-- The identifier, read as its array is read. -/
  ruleId : cString (loadPolicy bytes).2.ruleIdArray = some (encode ruleId)
  entityTypeHash : (loadPolicy bytes).2.entityTypeHash.toNat = logicHash logic
  /-- The comparisons of the tree, in order. -/
  checks : List.Forall₂ (Loaded slots) (logicChecks logic) (loadPolicy bytes).2.checks
  truncated : ∀ data, data <+: bytes → data ≠ bytes → (loadPolicy data).1 = .truncated
  /-- One slot for each fact, from 0 on. -/
  fields : (slots.map (·.1)).Nodup ∧ ∀ field, field ∈ slots.map (·.1) ↔
    field ∈ (logicChecks logic).map (·.fact)
  numbered : slots.map (·.2) = List.range slots.length ∧ slots.length ≤ maxFactSlots

theorem forall₂_loaded {slots : List (String × Nat)} {cs : List TreeCheck} {packed : List PackedCheck}
    (h : List.Forall₂ (StandsFor slots) cs packed)
    (hslot : ∀ check ∈ packed, check.slot < kMaxFactSlots) :
    List.Forall₂ (Loaded slots) cs (packed.pmap PackedCheck.toCheck hslot) := by
  induction h with
  | nil => exact .nil
  | @cons c check cs packed hhead _ ih =>
    have hop : (UInt8.ofNat check.code).toNat = c.code := by
      rw [hhead.code]
      exact UInt8.toNat_ofNat_of_lt' hhead.fits
    exact .cons ⟨hhead.slot, hop, hhead.value⟩
      (ih fun check' hcheck' => hslot check' (List.mem_cons_of_mem _ hcheck'))

/-- The facts of the slots are those of the comparisons. -/
theorem PacksTree.mem_fields (h : PacksTree packing cs) (field : String) :
    field ∈ packing.resolver.slots.map (·.1) ↔ field ∈ cs.map (·.fact) := by
  constructor
  · intro hfield
    obtain ⟨p, hp, rfl⟩ := List.mem_map.1 hfield
    obtain ⟨c, hc, hfact⟩ := h.named p hp
    exact List.mem_map.2 ⟨c, hc, hfact⟩
  · intro hfield
    obtain ⟨c, hc, rfl⟩ := List.mem_map.1 hfield
    obtain ⟨check, -, hcheck⟩ := exists_left_of_forall₂ h.checks.flip c hc
    exact List.mem_map.2 ⟨_, hcheck.slot, rfl⟩

/-- **Packing round-trips just for the identifiers that are C strings shorter than their array.** -/
theorem round_trip_iff {ruleId : String} {logic : Json} {bytes : List UInt8}
    {slots : List (String × Nat)} (h : packPolicy ruleId logic = .ok (bytes, slots)) :
    RoundTrips ruleId logic bytes slots ↔ (encode ruleId).length < ruleIdMaxLen ∧ 0 ∉ encode ruleId := by
  obtain ⟨hash, packing, hflatten, hid, hnum, rfl, rfl⟩ := packPolicy_ok h
  obtain ⟨rfl, hpacks⟩ := packsTree_flattenLogic hflatten
  have hslot : ∀ check ∈ packing.checks, check.slot < kMaxFactSlots := by
    intro check hcheck
    obtain ⟨c, -, hstands⟩ := exists_left_of_forall₂ hpacks.checks check hcheck
    exact (packing.resolver.slot_lt hstands.slot).trans_le packing.resolver.bounded
  have hcode : ∀ check ∈ packing.checks, check.code < 256 := by
    intro check hcheck
    obtain ⟨c, -, hstands⟩ := exists_left_of_forall₂ hpacks.checks check hcheck
    rw [hstands.code]
    exact hstands.fits
  have hhash := logicHash_lt logic
  obtain ⟨hok, hruleId, hentity, hchecks⟩ := loadPolicy_packed hid hhash hnum hslot hcode
  constructor
  · intro hround
    obtain ⟨hnul, rest, hrest⟩ := cString_eq_some_iff.1 hround.ruleId
    have harray := CompiledPolicy.length_ruleIdArray (loadPolicy (packHeader (encode ruleId).length
      (logicHash logic) packing.checks.length ++ encode ruleId ++ packing.checks.flatMap packCheck)).2
    rw [hrest, List.length_append, List.length_cons] at harray
    have hshorter : (encode ruleId).length < kRuleIdMaxLen := by omega
    exact ⟨hshorter, hnul⟩
  · intro ⟨hshorter, hnul⟩
    constructor
    · exact hok
    · rw [CompiledPolicy.ruleIdArray, hruleId]
      exact cString_padded hnul (Nat.sub_pos_of_lt hshorter)
    · rw [hentity]
      exact UInt32.toNat_ofNat_of_lt' hhash
    · rw [hchecks]
      exact forall₂_loaded hpacks.checks hslot
    · exact fun data hbegin hproper => loadPolicy_prefix hid hhash hnum hbegin hproper
    · exact ⟨packing.resolver.distinct, hpacks.mem_fields⟩
    · exact ⟨packing.resolver.numbered, packing.resolver.bounded⟩

theorem round_trip_floor :
    RoundTrips "c:1" floorLogic.logic floorBytes [("client.margin", 0)] ↔
      (encode "c:1").length < ruleIdMaxLen ∧ 0 ∉ encode "c:1" :=
  round_trip_iff packPolicy_floor

/-- An identifier of 80 letters. -/
def filledId : String := String.ofList (List.replicate 80 'A')

def filledBytes : List UInt8 :=
  packHeader 80 0 1 ++ encode filledId ++ packCheck ⟨0, 0, .ofRat fifty.toRat⟩

theorem packPolicy_filled :
    packPolicy filledId floorLogic.logic = .ok (filledBytes, [("client.margin", 0)]) := by
  have hid : (encode filledId).length = 80 := by decide +kernel
  unfold packPolicy
  dsimp only
  rw [flattenLogic_floor, hid, if_neg (by decide)]
  rfl

/-- It is packed, and fills the array that it is read from. -/
theorem not_forall_round_trips :
    ¬ ∀ (ruleId : String) (logic : Json) (bytes : List UInt8) (slots : List (String × Nat)),
      packPolicy ruleId logic = .ok (bytes, slots) → RoundTrips ruleId logic bytes slots := by
  intro h
  have hround := h _ _ _ _ packPolicy_filled
  have hnone : cString (loadPolicy filledBytes).2.ruleIdArray = none := by decide +kernel
  have hread := hround.ruleId
  rw [hnone] at hread
  cases hread

end RegEngine.Native
