import RegEngine.Lib.RelyGuarantee
import RegEngine.Resilience.DeadLetterQueue

/-!
# The indexes of the dead-letter queue

`Indexed`: every sorted set has the ids of exactly those entries that it is named after. A pipeline keeps
that when the stored status is the one its sender has read or the one it writes, an edit when the stored
status is the one that was read (`Current`); and the category never changes, which is what the callers
rely on of each other. So the indexes agree with the entries in every interleaving of such commands
(`indexed_reachable`), and what `list` and `stats` return follows.
-/

namespace RegEngine.Resilience

open Lib Lib.Programs Lib.RelyGuarantee

/-- Every sorted set has the ids of the entries that it is named after. -/
structure Indexed (s : Store) : Prop where
  keyed : ∀ id e, s.entries id = some e → e.entryId = id
  all : ∀ id, (s.index .all).Mem id ↔ ∃ e, s.entries id = some e
  category : ∀ id c, (s.index (.category c)).Mem id ↔ ∃ e, s.entries id = some e ∧ e.category = c
  status : ∀ id st, (s.index (.status st)).Mem id ↔ ∃ e, s.entries id = some e ∧ e.status = st

/-! ## Pipelines -/

@[simp] theorem entries_put (s : Store) (e : DLQEntry) :
    (s.put e).entries = Function.update s.entries e.entryId (some e) := rfl

@[simp] theorem index_put (s : Store) (e : DLQEntry) : (s.put e).index = s.index := rfl

@[simp] theorem entries_zadd (s : Store) (i : Index) (e : DLQEntry) :
    (s.zadd i e).entries = s.entries := rfl

@[simp] theorem entries_zrem (s : Store) (i : Index) (id : String) :
    (s.zrem i id).entries = s.entries := rfl

theorem mem_index_zadd (s : Store) (i j : Index) (e : DLQEntry) (id : String) :
    ((s.zadd i e).index j).Mem id ↔ (j = i ∧ id = e.entryId) ∨ (s.index j).Mem id := by
  by_cases hj : j = i
  · subst hj
    simp [Store.zadd, SortedSet.mem_zadd]
  · simp [Store.zadd, hj]

theorem mem_index_zrem (s : Store) (i j : Index) (id' id : String) :
    ((s.zrem i id').index j).Mem id ↔ (s.index j).Mem id ∧ ¬ (j = i ∧ id = id') := by
  by_cases hj : j = i
  · subst hj
    simp [Store.zrem, SortedSet.mem_zrem]
  · simp [Store.zrem, hj]

theorem update_eq_some_iff {f : String → Option DLQEntry} {id id' : String} {e e' : DLQEntry} :
    Function.update f id (some e) id' = some e' ↔
      (id' = id ∧ e = e') ∨ (id' ≠ id ∧ f id' = some e') := by
  by_cases h : id' = id
  · subst h
    simp
  · simp [h]

theorem Indexed.persistNew {s : Store} {e : DLQEntry} (h : Indexed s)
    (hnew : s.entries e.entryId = none) : Indexed (s.persistNew e) := by
  have hold : ∀ id e', s.entries id = some e' → id ≠ e.entryId := by
    rintro id e' he' rfl
    rw [hnew] at he'
    cases he'
  unfold Store.persistNew
  refine ⟨fun id e' => ?_, fun id => ?_, fun id c => ?_, fun id st => ?_⟩
  · simp only [entries_zadd, entries_put, update_eq_some_iff]
    rintro (⟨rfl, rfl⟩ | ⟨_, he'⟩)
    · rfl
    · exact h.keyed id e' he'
  · simp only [mem_index_zadd, index_put, entries_zadd, entries_put, update_eq_some_iff, h.all]
    grind
  · simp only [mem_index_zadd, index_put, entries_zadd, entries_put, update_eq_some_iff, h.category]
    grind
  · simp only [mem_index_zadd, index_put, entries_zadd, entries_put, update_eq_some_iff, h.status]
    grind

theorem Indexed.set {s : Store} {id : String} {stored written : DLQEntry} (h : Indexed s)
    (hstored : s.entries id = some stored) (hid : written.entryId = id)
    (hcategory : written.category = stored.category) (hstatus : written.status = stored.status) :
    Indexed { s with entries := Function.update s.entries id (some written) } := by
  refine ⟨fun id' e' => ?_, fun id' => ?_, fun id' c => ?_, fun id' st => ?_⟩
  · simp only [update_eq_some_iff]
    rintro (⟨rfl, rfl⟩ | ⟨_, he'⟩)
    · exact hid
    · exact h.keyed id' e' he'
  · simp only [update_eq_some_iff, h.all]
    grind
  · simp only [update_eq_some_iff, h.category]
    grind
  · simp only [update_eq_some_iff, h.status]
    grind

theorem Indexed.moveStatus {s : Store} {old : DLQStatus} {stored e : DLQEntry} (h : Indexed s)
    (hstored : s.entries e.entryId = some stored) (hcategory : e.category = stored.category)
    (hstatus : stored.status = old ∨ stored.status = e.status) : Indexed (s.moveStatus old e) := by
  unfold Store.moveStatus
  refine ⟨fun id e' => ?_, fun id => ?_, fun id c => ?_, fun id st => ?_⟩
  · simp only [entries_zadd, entries_zrem, entries_put, update_eq_some_iff]
    rintro (⟨rfl, rfl⟩ | ⟨_, he'⟩)
    · rfl
    · exact h.keyed id e' he'
  · simp only [mem_index_zadd, mem_index_zrem, index_put, entries_zadd, entries_zrem, entries_put,
      update_eq_some_iff, h.all]
    grind
  · simp only [mem_index_zadd, mem_index_zrem, index_put, entries_zadd, entries_zrem, entries_put,
      update_eq_some_iff, h.category]
    grind
  · simp only [mem_index_zadd, mem_index_zrem, index_put, entries_zadd, entries_zrem, entries_put,
      update_eq_some_iff, h.status]
    grind

/-! ## What the callers rely on -/

/-- An edit finds the status it has read, a transition that one or the one it writes. -/
def Current (s : Store) : Command → Prop
  | .set id read _ => ∀ stored, s.entries id = some stored → stored.status = read.status
  | .moveStatus old entry => ∀ stored, s.entries entry.entryId = some stored →
      stored.status = old ∨ stored.status = entry.status
  | _ => True

/-- Entries stay, with their category. -/
def Keeps (s t : Store) : Prop :=
  ∀ id e, s.entries id = some e → ∃ e', t.entries id = some e' ∧ e'.category = e.category

theorem Keeps.refl (s : Store) : Keeps s s := fun _ e he => ⟨e, he, rfl⟩

theorem Keeps.trans {s t u : Store} (h : Keeps s t) (h' : Keeps t u) : Keeps s u := by
  intro id e he
  obtain ⟨e₁, he₁, hcategory₁⟩ := h id e he
  obtain ⟨e₂, he₂, hcategory₂⟩ := h' id e₁ he₁
  exact ⟨e₂, he₂, hcategory₂.trans hcategory₁⟩

theorem Keeps.update {s t : Store} {id : String} {written : DLQEntry}
    (ht : t.entries = Function.update s.entries id (some written))
    (h : ∀ stored, s.entries id = some stored → written.category = stored.category) : Keeps s t := by
  intro id' e he
  rw [ht]
  by_cases hid : id' = id
  · subst hid
    exact ⟨written, by simp, h e he⟩
  · exact ⟨e, by simpa [hid] using he, rfl⟩

/-- The callers rely on entries that stay. -/
def indexes (ι : Type) : Protocol Store ι where
  inv := Indexed
  grow := Keeps
  rely _ _ _ := True
  done _ _ := True
  grow_refl := Keeps.refl
  grow_trans _ _ _ := Keeps.trans
  rely_refl _ _ := trivial
  rely_trans _ _ _ _ _ _ := trivial
  done_rely _ _ _ _ _ := trivial

variable {ι : Type} {i : ι}

theorem guarantee {s s' : Store} (hinv : Indexed s') (hkeeps : Keeps s s') :
    (indexes ι).Guarantee i s s' :=
  ⟨hinv, hkeeps, fun _ _ => trivial⟩

/-! ## The calls -/

/-- A program of one of the callers. -/
def SafeCall {α : Type} (i : ι) (p : DLQM α) (s : Store) : Prop :=
  Safe (indexes ι) Exec Current i (fun _ _ => True) p.run s

variable {α β : Type} {s : Store}

/-- A step that does not change what is stored. -/
theorem safe_quiet {c : Command} {f : Reply c → DLQM β} (hquiet : ∀ s₁ r s₂, Exec c s₁ r s₂ →
      s₂.entries = s₁.entries ∧ s₂.index = s₁.index)
    (hf : ∀ r s₁ s₂, Keeps s s₁ → Exec c s₁ r s₂ → SafeCall i (f r) s₂) :
    SafeCall i (command c >>= f) s := by
  refine safe_send_bind fun s₁ hinv hrely _ r s₂ _ hexec => ?_
  obtain ⟨hentries, hindex⟩ := hquiet s₁ r s₂ hexec
  refine ⟨guarantee ?_ ?_, hf r s₁ s₂ hrely hexec⟩
  · refine ⟨?_, ?_, ?_, ?_⟩
    · rw [hentries]
      exact hinv.keyed
    · rw [hentries, hindex]
      exact hinv.all
    · rw [hentries, hindex]
      exact hinv.category
    · rw [hentries, hindex]
      exact hinv.status
  · intro id e he
    exact ⟨e, by rw [hentries]; exact he, rfl⟩

theorem safe_clock {f : Int → DLQM β} (hf : ∀ now s', Keeps s s' → SafeCall i (f now) s') :
    SafeCall i ((command .clock : DLQM Int) >>= f) s := by
  refine safe_quiet (c := .clock) ?_ ?_
  · intro s₁ r s₂ hexec
    cases hexec with
    | clock => exact ⟨rfl, rfl⟩
  · intro r s₁ s₂ hkeeps hexec
    cases hexec with
    | clock => exact hf _ _ hkeeps

/-- An entry with this id and this category is stored. -/
def Stored (id : String) (e : DLQEntry) (s : Store) : Prop :=
  e.entryId = id ∧ ∃ stored, s.entries id = some stored ∧ stored.category = e.category

theorem Stored.keeps {id : String} {e : DLQEntry} {t : Store} (h : Stored id e s) (hkeeps : Keeps s t) :
    Stored id e t := by
  obtain ⟨hid, stored, hstored, hcategory⟩ := h
  obtain ⟨stored', hstored', hcategory'⟩ := hkeeps id stored hstored
  exact ⟨hid, stored', hstored', hcategory'.trans hcategory⟩

theorem get_spec (id : String) :
    Safe (indexes ι) Exec Current i (fun r s' => ∀ e, r = .ok e → Stored id e s') (get id).run s := by
  refine safe_send_bind fun s₁ hinv hrely _ r s₂ _ hexec => ?_
  cases hexec with
  | get =>
    refine ⟨guarantee hinv (Keeps.refl _), ?_⟩
    cases he : s₁.entries id with
    | none => exact safe_throw fun e h => by cases h
    | some e =>
      refine safe_pure fun e' he' => ?_
      obtain rfl := Except.ok.inj he'
      exact ⟨hinv.keyed id e he, e, he, rfl⟩

theorem safe_get (id : String) {f : DLQEntry → DLQM β}
    (hf : ∀ e s', Stored id e s' → SafeCall i (f e) s') : SafeCall i (get id >>= f) s := by
  refine safe_bind (get_spec id) (fun _ _ _ => trivial) fun e s' h => ?_
  exact hf e s' (h e rfl)

/-- The pipeline of a transition. -/
theorem safe_moveStatus {id : String} {e read : DLQEntry} {f : DLQM α} (hread : Stored id read s)
    (hid : e.entryId = read.entryId) (hcategory : e.category = read.category)
    (hf : ∀ s', SafeCall i f s') :
    SafeCall i (command (.moveStatus read.status e) >>= fun _ => f) s := by
  refine safe_send_bind fun s₁ hinv hrely _ r s₂ hok hexec => ?_
  obtain ⟨hid', stored, hstored, hstoredcategory⟩ := hread.keeps hrely
  cases hexec with
  | moveStatus =>
    rw [← hid', ← hid] at hstored
    have hsame : e.category = stored.category := hcategory.trans hstoredcategory.symm
    refine ⟨guarantee (hinv.moveStatus hstored hsame (hok stored hstored)) ?_, hf _⟩
    refine Keeps.update rfl fun stored' hstored' => ?_
    obtain rfl := Option.some.inj (hstored.symm.trans hstored')
    exact hsame

theorem safe_pure_call (a : α) : SafeCall i (pure a) s := safe_pure trivial

theorem safe_throw_call (e : DLQError) : SafeCall i (throw e : DLQM α) s := safe_throw trivial

theorem safe_send (f : Failure) : SafeCall i (send f) s := by
  refine safe_clock fun now s₁ _ => ?_
  refine safe_send_bind fun s₂ hinv hrely _ r s₃ _ hexec => ?_
  cases hexec with
  | persistNew _ hnew =>
    refine ⟨guarantee (hinv.persistNew hnew) ?_, safe_pure_call _⟩
    refine Keeps.update rfl fun stored hstored => ?_
    rw [hnew] at hstored
    cases hstored

theorem safe_updatePayload (id : String) (payload : Payload) : SafeCall i (updatePayload id payload) s := by
  refine safe_get id fun e s₁ hread => ?_
  split_ifs with hterminal
  · exact safe_throw_call _
  refine safe_send_bind fun s₂ hinv hrely _ r s₃ hok hexec => ?_
  obtain ⟨hid, stored, hstored, hcategory⟩ := hread.keeps hrely
  cases hexec with
  | set =>
    refine ⟨guarantee (hinv.set hstored hid hcategory.symm (hok stored hstored).symm) ?_,
      safe_pure_call _⟩
    refine Keeps.update rfl fun stored' hstored' => ?_
    obtain rfl := Option.some.inj (hstored.symm.trans hstored')
    exact hcategory.symm

theorem safe_markRequeued (id requeuedBy taskId : String) :
    SafeCall i (markRequeued id requeuedBy taskId) s := by
  refine safe_get id fun e s₁ hread => ?_
  split_ifs with hterminal
  · exact safe_throw_call _
  refine safe_clock fun now s₂ hkeeps => ?_
  exact safe_moveStatus (hread.keeps hkeeps) rfl rfl fun _ => safe_pure_call _

theorem safe_markResolved (id resolvedBy : String) (notes : Option String) :
    SafeCall i (markResolved id resolvedBy notes) s := by
  refine safe_get id fun e s₁ hread => ?_
  refine safe_clock fun now s₂ hkeeps => ?_
  exact safe_moveStatus (hread.keeps hkeeps) rfl rfl fun _ => safe_pure_call _

theorem safe_discard (id discardedBy : String) (notes : Option String) :
    SafeCall i (discard id discardedBy notes) s := by
  refine safe_get id fun e s₁ hread => ?_
  split_ifs with hterminal
  · exact safe_throw_call _
  refine safe_clock fun now s₂ hkeeps => ?_
  exact safe_moveStatus (hread.keeps hkeeps) rfl rfl fun _ => safe_pure_call _

/-! ## Interleavings -/

/-- A call of the queue. -/
inductive Call where
  | send (failure : Failure)
  | updatePayload (entryId : String) (newPayload : Payload)
  | markRequeued (entryId requeuedBy requeuedTaskId : String)
  | markResolved (entryId resolvedBy : String) (notes : Option String)
  | discard (entryId discardedBy : String) (notes : Option String)

def Call.program : Call → Prog Command Reply (Except DLQError DLQEntry)
  | .send f => (Resilience.send f).run
  | .updatePayload id payload => (Resilience.updatePayload id payload).run
  | .markRequeued id requeuedBy taskId => (Resilience.markRequeued id requeuedBy taskId).run
  | .markResolved id resolvedBy notes => (Resilience.markResolved id resolvedBy notes).run
  | .discard id discardedBy notes => (Resilience.discard id discardedBy notes).run

theorem safe_program (call : Call) :
    Safe (indexes ι) Exec Current i (fun _ _ => True) call.program s := by
  cases call with
  | send f => exact safe_send f
  | updatePayload id payload => exact safe_updatePayload id payload
  | markRequeued id requeuedBy taskId => exact safe_markRequeued id requeuedBy taskId
  | markResolved id resolvedBy notes => exact safe_markResolved id resolvedBy notes
  | discard id discardedBy notes => exact safe_discard id discardedBy notes

/-- Nothing has failed yet. -/
def Store.initial : Store := ⟨fun _ => none, fun _ => .empty, []⟩

/-- The calls before they begin. -/
def start {ι : Type} (calls : ι → Call) :
    State Command Reply (Except DLQError DLQEntry) Store ι :=
  ⟨.initial, fun i => (calls i).program⟩

theorem indexed_initial : Indexed .initial := by
  refine ⟨fun id e he => ?_, fun id => ?_, fun id c => ?_, fun id st => ?_⟩
  · cases he
  · simp [Store.initial, SortedSet.empty, SortedSet.Mem]
  · simp [Store.initial, SortedSet.empty, SortedSet.Mem]
  · simp [Store.initial, SortedSet.empty, SortedSet.Mem]

theorem indexed_reachable {ι : Type} [DecidableEq ι] {calls : ι → Call}
    {S : State Command Reply (Except DLQError DLQEntry) Store ι}
    (h : Reachable Exec Current (start calls) S) : Indexed S.store := by
  have hstart : Global (indexes ι) Exec Current (start calls) :=
    ⟨indexed_initial, fun i => safe_program (calls i)⟩
  exact (safe_reachable hstart h).1.inv

/-! ## Listings and counts -/

/-- The kept entries among these ids. -/
def found (s : Store) (keep : DLQEntry → Bool) (ids : List String) : List DLQEntry :=
  (ids.filterMap s.entries).filter keep

theorem runs_get_iff {id : String} (f : Option DLQEntry → DLQM α) {r : Except DLQError α} {s' : Store} :
    Runs Exec ((command (.get id) : DLQM (Option DLQEntry)) >>= f).run s r s' ↔
      Runs Exec (f (s.entries id)).run s r s' := by
  refine Proc.runs_send_bind_iff.trans ⟨?_, fun h => ⟨_, _, .get id, h⟩⟩
  rintro ⟨_, _, hexec, h⟩
  cases hexec with
  | get => exact h

theorem runs_collect_iff {keep : DLQEntry → Bool} {bound : Nat} {ids : List String}
    {entries : List DLQEntry} {r : Except DLQError (List DLQEntry)} {s' : Store} :
    Runs Exec (collect keep bound ids entries).run s r s' ↔
      r = .ok (entries ++ (found s keep ids).take (max 1 (bound - entries.length))) ∧ s' = s := by
  induction ids generalizing entries with
  | nil => simpa [collect, found] using Proc.runs_pure_iff
  | cons id ids ih =>
    refine (runs_get_iff _).trans ?_
    cases he : s.entries id with
    | none =>
      have hfound : found s keep (id :: ids) = found s keep ids := by simp [found, he]
      rw [hfound]
      exact ih
    | some e =>
      cases hkeep : keep e with
      | false =>
        have hfound : found s keep (id :: ids) = found s keep ids := by simp [found, he, hkeep]
        rw [hfound]
        simpa [hkeep] using ih
      | true =>
        have hfound : found s keep (id :: ids) = e :: found s keep ids := by simp [found, he, hkeep]
        rw [hfound]
        by_cases hbound : bound ≤ (entries ++ [e]).length
        · have hone : max 1 (bound - entries.length) = 1 := by
            rw [List.length_append, List.length_singleton] at hbound
            omega
          simp only [hkeep, if_true, if_pos hbound, hone, List.take_succ_cons, List.take_zero]
          exact Proc.runs_pure_iff
        · have hmore : max 1 (bound - entries.length) =
              max 1 (bound - (entries ++ [e]).length) + 1 := by
            rw [List.length_append, List.length_singleton] at hbound ⊢
            omega
          have happend : ∀ rest, entries ++ e :: rest = (entries ++ [e]) ++ rest := by simp
          rw [hmore, List.take_succ_cons, happend]
          simp only [hkeep, if_true, if_neg hbound]
          exact ih

/-- The entries with a status. -/
def WithStatus (s : Store) (st : DLQStatus) (l : List DLQEntry) : Prop :=
  (l.map DLQEntry.entryId).Nodup ∧ ∀ e, e ∈ l ↔ s.entries e.entryId = some e ∧ e.status = st

theorem withStatus_found (h : Indexed s) (st : DLQStatus) :
    WithStatus s st (found s (fun _ => true) (s.index (.status st)).zrevrange) := by
  have hids : (found s (fun _ => true) (s.index (.status st)).zrevrange).map DLQEntry.entryId =
      (s.index (.status st)).zrevrange := by
    have hall : ∀ ids : List String, (∀ id ∈ ids, ∃ e, s.entries id = some e) →
        (found s (fun _ => true) ids).map DLQEntry.entryId = ids := by
      intro ids hids
      induction ids with
      | nil => rfl
      | cons id ids ih =>
        obtain ⟨e, he⟩ := hids id (List.mem_cons_self ..)
        have hrest := ih fun id' hid' => hids id' (List.mem_cons_of_mem _ hid')
        rw [found] at hrest ⊢
        rw [List.filterMap_cons_some he, List.filter_cons_of_pos rfl, List.map_cons, hrest,
          h.keyed id e he]
    refine hall _ fun id hid => ?_
    obtain ⟨e, he, _⟩ := (h.status id st).1 (SortedSet.mem_zrevrange.1 hid)
    exact ⟨e, he⟩
  refine ⟨by rw [hids]; exact SortedSet.nodup_zrevrange _, fun e => ?_⟩
  have hmem : e ∈ found s (fun _ => true) (s.index (.status st)).zrevrange ↔
      ∃ id, (s.index (.status st)).Mem id ∧ s.entries id = some e := by
    rw [found, List.filter_true, List.mem_filterMap]
    simp only [SortedSet.mem_zrevrange]
  rw [hmem]
  constructor
  · rintro ⟨id, hid, he⟩
    obtain ⟨e', he', hst⟩ := (h.status id st).1 hid
    obtain rfl := Option.some.inj (he'.symm.trans he)
    rw [h.keyed id e' he]
    exact ⟨he, hst⟩
  · rintro ⟨he, hst⟩
    exact ⟨e.entryId, (h.status _ st).2 ⟨e, he, hst⟩, he⟩

/-- A page of the entries with a status. -/
theorem runs_list_iff (st : DLQStatus) (limit offset : Nat)
    {r : Except DLQError (List DLQEntry)} {s' : Store} :
    Runs Exec (list none (some st) limit offset).run s r s' ↔
      r = .ok (((found s (fun _ => true) (s.index (.status st)).zrevrange).drop offset).take limit) ∧
        s' = s := by
  generalize hl : found s (fun _ => true) (s.index (.status st)).zrevrange = l
  have hpage : ((l.take (max 1 (offset + limit))).drop offset).take limit =
      (l.drop offset).take limit := by
    rw [List.drop_take, List.take_take]
    congr 1
    omega
  have hrange : ∀ r t, Exec (.zrevrange (.status st)) s r t → r = (s.index (.status st)).zrevrange ∧
      t = s := by
    intro r t hexec
    cases hexec with
    | zrevrange => exact ⟨rfl, rfl⟩
  refine Proc.runs_send_bind_iff.trans ⟨?_, ?_⟩
  · rintro ⟨ids, t, hexec, hrun⟩
    obtain ⟨rfl, rfl⟩ := hrange ids t hexec
    have hcollect := Proc.runs_bind_ok_iff (fun _ _ => runs_collect_iff) |>.1 hrun
    obtain ⟨rfl, rfl⟩ := Proc.runs_pure_iff.1 hcollect
    refine ⟨?_, rfl⟩
    rw [← hpage, ← hl]
    simp
  · rintro ⟨rfl, rfl⟩
    refine ⟨_, _, .zrevrange _, ?_⟩
    refine (Proc.runs_bind_ok_iff (fun _ _ => runs_collect_iff)).2 (Proc.runs_pure_iff.2 ⟨?_, rfl⟩)
    rw [← hpage, ← hl]
    simp

theorem runs_count_iff {i : Index} {r : Except DLQError Nat} {s' : Store} :
    Runs Exec (count i).run s r s' ↔ r = .ok (s.index i).zcard ∧ s' = s := by
  constructor
  · intro h
    cases h with
    | cmd hexec hrest =>
      cases hexec with
      | zcard =>
        cases hrest with
        | ret => exact ⟨rfl, rfl⟩
  · rintro ⟨rfl, rfl⟩
    exact .cmd (.zcard i) .ret

/-- What `stats` returns. -/
def statsOf (s : Store) : DLQStats where
  total := (s.index .all).zcard
  byCategory := FailureCategory.all.map fun c => (c.value, (s.index (.category c)).zcard)
  byStatus := DLQStatus.all.map fun st => (st.value, (s.index (.status st)).zcard)

theorem runs_counts_iff {κ : Type} (name : κ → String) (index : κ → Index) (l : List κ)
    {r : Except DLQError (List (String × Nat))} {s' : Store} :
    Runs Exec (l.mapM fun k => do
        let n ← count (index k)
        return (name k, n) : DLQM (List (String × Nat))).run s r s' ↔
      r = .ok (l.map fun k => (name k, (s.index (index k)).zcard)) ∧ s' = s := by
  refine Proc.runs_mapM_iff (g := fun k => (name k, (s.index (index k)).zcard)) ?_ l
  intro k b t
  exact (Proc.runs_bind_ok_iff fun _ _ => runs_count_iff).trans Proc.runs_pure_iff

theorem runs_stats_iff {r : Except DLQError DLQStats} {s' : Store} :
    Runs Exec stats.run s r s' ↔ r = .ok (statsOf s) ∧ s' = s := by
  refine (Proc.runs_bind_ok_iff fun _ _ => runs_count_iff).trans ?_
  refine (Proc.runs_bind_ok_iff fun _ _ => runs_counts_iff FailureCategory.value .category _).trans ?_
  refine (Proc.runs_bind_ok_iff fun _ _ => runs_counts_iff DLQStatus.value .status _).trans ?_
  exact Proc.runs_pure_iff

theorem sum_byStatus (h : Indexed s) :
    ((statsOf s).byStatus.map Prod.snd).sum = (statsOf s).total := by
  have hkeys : DLQStatus.all.Nodup := by decide
  have hsum := SortedSet.zcard_eq_sum (s.index .all) (fun st => s.index (.status st)) hkeys ?_ ?_
  · rw [statsOf, hsum, List.map_map]
    rfl
  · intro id
    rw [h.all]
    constructor
    · rintro ⟨e, he⟩
      exact ⟨e.status, by cases e.status <;> decide, (h.status id _).2 ⟨e, he, rfl⟩⟩
    · rintro ⟨st, _, hmem⟩
      obtain ⟨e, he, _⟩ := (h.status id st).1 hmem
      exact ⟨e, he⟩
  · intro id st st' hmem hmem'
    obtain ⟨e, he, rfl⟩ := (h.status id st).1 hmem
    obtain ⟨e', he', rfl⟩ := (h.status id st').1 hmem'
    rw [Option.some.inj (he.symm.trans he')]

/-- What the claims of the indexes come to. -/
structure Agrees (s : Store) : Prop where
  all : ∀ id e, s.entries id = some e → (s.index .all).Mem id
  category : ∀ id e, s.entries id = some e → ∀ c, (s.index (.category c)).Mem id ↔ c = e.category
  status : ∀ id e, s.entries id = some e → ∀ st, (s.index (.status st)).Mem id ↔ st = e.status
  list : ∀ st, ∃ l, WithStatus s st l ∧ ∀ limit offset r s',
    Runs Exec (Resilience.list none (some st) limit offset).run s r s' ↔
      r = .ok ((l.drop offset).take limit) ∧ s' = s
  stats : ∃ counts : DLQStats, (counts.byStatus.map Prod.snd).sum = counts.total ∧
    ∀ r s', Runs Exec Resilience.stats.run s r s' ↔ r = .ok counts ∧ s' = s

theorem Indexed.agrees (h : Indexed s) : Agrees s where
  all id e he := (h.all id).2 ⟨e, he⟩
  category id e he c := by
    rw [h.category, he]
    simp [eq_comm]
  status id e he st := by
    rw [h.status, he]
    simp [eq_comm]
  list st := ⟨_, withStatus_found h st, fun _ _ _ _ => runs_list_iff st _ _⟩
  stats := ⟨statsOf s, sum_byStatus h, fun _ _ => runs_stats_iff⟩

/-- **The indexes agree with the entries** in every interleaving whose edits and transitions find the
status that their sender has read. -/
theorem indexes_agree {ι : Type} [DecidableEq ι] (calls : ι → Call)
    (S : State Command Reply (Except DLQError DLQEntry) Store ι)
    (h : Reachable Exec Current (start calls) S) : Agrees S.store :=
  (indexed_reachable h).agrees

/-! ## Two transitions at a time -/

def sampleFailure : Failure where
  entryId := "e1"
  category := .pdfParsing
  taskName := "app.parsing.tasks.parse_circular_task"
  payload := []
  errorType := "ValueError"
  errorMessage := "truncated"
  traceback := none
  originalTaskId := none
  attemptCount := 1

def pendingEntry : DLQEntry where
  entryId := "e1"
  category := .pdfParsing
  taskName := "app.parsing.tasks.parse_circular_task"
  originalTaskId := none
  payload := []
  errorType := "ValueError"
  errorMessage := "truncated"
  traceback := none
  attemptCount := 1
  firstFailedAt := 0
  lastFailedAt := 0
  status := .pending
  requeuedAt := none
  requeuedBy := none
  requeuedTaskId := none
  resolutionNotes := none
  resolvedBy := none
  resolvedAt := none

def resolvedEntry : DLQEntry :=
  { pendingEntry with status := .resolved, resolvedBy := some "engineer-1", resolvedAt := some 0 }

def requeuedEntry : DLQEntry :=
  { pendingEntry with
    status := .requeued
    requeuedAt := some 0
    requeuedBy := some "engineer-2"
    requeuedTaskId := some "task-1" }

/-- One failure, and two engineers. -/
def sampleCalls : Fin 3 → Call
  | 0 => .send sampleFailure
  | 1 => .markRequeued "e1" "engineer-2" "task-1"
  | 2 => .markResolved "e1" "engineer-1" none

def sentStore : Store := Store.initial.persistNew pendingEntry

theorem runs_send (Ok : Store → Command → Prop) (hok : ∀ s c, Current s c → Ok s c) :
    Runs (fun c s r s' => Ok s c ∧ Exec c s r s') (send sampleFailure).run .initial
      (.ok pendingEntry) sentStore := by
  refine .cmd ⟨hok _ _ trivial, .clock 0⟩ ?_
  refine .cmd ⟨hok _ _ trivial, .persistNew pendingEntry rfl⟩ ?_
  exact .ret

theorem indexes_agree_sent :
    ∃ S : State Command Reply (Except DLQError DLQEntry) Store (Fin 3),
      Reachable Exec Current (start sampleCalls) S ∧ S.store.entries "e1" = some pendingEntry ∧
        Agrees S.store := by
  have hreach := reachable_of_runs (runs_send Current fun _ _ h => h) (S := start sampleCalls) (i := 0)
    rfl rfl
  exact ⟨_, hreach, rfl, indexes_agree sampleCalls _ hreach⟩

/-- The requeue reads, the resolution moves the entry, and the requeue moves it from where it was. -/
theorem not_forall_indexes_agree :
    ¬ ∀ (calls : Fin 3 → Call) (S : State Command Reply (Except DLQError DLQEntry) Store (Fin 3)),
      Reachable Exec (fun _ _ => True) (start calls) S → Agrees S.store := by
  intro h
  have hsend := reachable_of_runs (runs_send (fun _ _ => True) fun _ _ _ => trivial)
    (S := start sampleCalls) (i := 0) rfl rfl
  have hread := hsend.trans (reachable_of_advances (i := 1)
    (.cmd ⟨trivial, .get "e1"⟩ (.cmd ⟨trivial, .clock 0⟩ .refl)) rfl rfl)
  have hresolve := hread.trans (reachable_of_advances (i := 2)
    (.cmd ⟨trivial, .get "e1"⟩ (.cmd ⟨trivial, .clock 0⟩
      (.cmd ⟨trivial, .moveStatus .pending resolvedEntry⟩ .refl))) rfl rfl)
  have hrequeue := hresolve.trans (reachable_of_advances (i := 1)
    (.cmd ⟨trivial, .moveStatus .pending requeuedEntry⟩ .refl) rfl rfl)
  have hagrees := (h sampleCalls _ hrequeue).status "e1" requeuedEntry rfl .resolved
  simp only [Store.moveStatus, mem_index_zadd, mem_index_zrem, index_put] at hagrees
  have hstatus := hagrees.1 (.inr ⟨.inl ⟨rfl, rfl⟩, by decide⟩)
  cases hstatus

end RegEngine.Resilience
