import RegEngine.Security.SessionManager

/-!
# Ended sessions

The requests of one human token and the revocations of it, one after another. A session that has ended is
an absent key, as one that has never begun: the next request begins a new one. So what has ended stays so
when every request but the first event finds the key (`ended_of_finds`); and for increasing moments and
a timeout that doubles can tell from its neighbours, only then (`finds_of_ended`).
-/

namespace RegEngine.Security

open Lib

/-- What happens with the token. -/
inductive Event where
  | request (now : Int)
  | revoke (now : Int)

def Event.now : Event → Int
  | .request now | .revoke now => now

/-- An event of a run. -/
structure Step where
  before : Sessions
  event : Event
  response : Option Response
  after : Sessions

section
variable (settings : Settings) (p : Principal)

def step (s : Sessions) : Event → Step
  | .request now =>
    let (response, s') := dispatch settings (some p) now s
    ⟨s, .request now, some response, s'⟩
  | .revoke now => ⟨s, .revoke now, none, revoke p.tokenId s⟩

/-- A run. -/
def run : Sessions → List Event → List Step
  | _, [] => []
  | s, e :: events => step settings p s e :: run (step settings p s e).after events

end

namespace Step

def IsRequest (a : Step) : Prop := ∃ now, a.event = .request now

/-- A request that is let through. -/
def Passes (a : Step) : Prop := a.response = some .next

/-- `SessionExpiredError`, or a revocation. -/
def Ends (a : Step) : Prop := (∃ reason, a.response = some (.unauthorized reason)) ∨ ∃ now, a.event = .revoke now

/-- A request finds the key of the token. -/
def Finds (p : Principal) (a : Step) : Prop :=
  ∀ now, a.event = .request now → a.before.hgetall p.tokenId now ≠ none

end Step

/-- Nothing is let through after an end, nor longer after the first request than the absolute timeout. -/
structure StaysEnded (settings : Settings) (trace : List Step) : Prop where
  ended : trace.Pairwise fun a b => a.Ends → ¬ b.Passes
  absolute : ∀ earlier first rest, trace = earlier ++ first :: rest → first.IsRequest →
    (∀ a ∈ earlier, ¬ a.IsRequest) → ∀ b ∈ first :: rest, b.Passes →
      totalSeconds (b.event.now - first.event.now) ≤ settings.sessionAbsoluteTimeoutSeconds

/-! ## One event -/

variable {settings : Settings} {p : Principal} {s : Sessions} {now : Int}

theorem Sessions.hgetall_some {x : Session} {tokenId : String} :
    s.hgetall tokenId now = some x ↔ s tokenId = some x ∧ now ≤ x.expiresAt := by
  unfold Sessions.hgetall
  rw [Option.filter_eq_some_iff]
  simp

theorem delete_self (s : Sessions) (tokenId : String) : s.delete tokenId tokenId = none := by
  simp [Sessions.delete]

/-- What an event does to the key of the token. -/
inductive Effect (settings : Settings) (p : Principal) (s : Sessions) : Step → Prop where
  | revoked {a : Step} {now : Int} : a.event = .revoke now → ¬ a.Passes → a.after p.tokenId = none →
      Effect settings p s a
  | rejected {a : Step} {now : Int} : a.event = .request now → s.hgetall p.tokenId now ≠ none →
      a.Ends → ¬ a.Passes → a.after p.tokenId = none → Effect settings p s a
  | began {a : Step} {now : Int} : a.event = .request now → s.hgetall p.tokenId now = none →
      a.Passes → ¬ a.Ends →
      a.after = s.hsetExpire p.tokenId ⟨p.subject, now, now, now⟩
        settings.sessionAbsoluteTimeoutSeconds now → Effect settings p s a
  | touched {a : Step} {now : Int} (x : Session) : a.event = .request now →
      s.hgetall p.tokenId now = some x → a.Passes → ¬ a.Ends →
      totalSeconds (now - x.createdAt) ≤ settings.sessionAbsoluteTimeoutSeconds →
      a.after = s.hsetExpire p.tokenId { x with lastActivityAt := now }
        (max 1 (settings.sessionAbsoluteTimeoutSeconds -
          truncate (totalSeconds (now - x.createdAt)))) now → Effect settings p s a

/-- The token is human. -/
theorem step_effect (settings : Settings) (hhuman : p.tenantId = none) (s : Sessions) (e : Event) :
    Effect settings p s (step settings p s e) := by
  cases e with
  | revoke now => exact .revoked rfl (fun h => by cases h) (delete_self s p.tokenId)
  | request now =>
    cases hget : s.hgetall p.tokenId now with
    | none =>
      have hstep : step settings p s (.request now) = ⟨s, .request now, some .next,
          s.hsetExpire p.tokenId ⟨p.subject, now, now, now⟩ settings.sessionAbsoluteTimeoutSeconds now⟩ := by
        simp [step, dispatch, hhuman, touchOrCreate, hget]
      rw [hstep]
      exact .began rfl hget rfl (by simp [Step.Ends]) rfl
    | some x =>
      by_cases habsolute : settings.sessionAbsoluteTimeoutSeconds < totalSeconds (now - x.createdAt)
      · have hstep : step settings p s (.request now) = ⟨s, .request now,
            some (.unauthorized "absolute_timeout"), s.delete p.tokenId⟩ := by
          simp [step, dispatch, hhuman, touchOrCreate, hget, habsolute, SessionExpiredError.reason]
        rw [hstep]
        exact .rejected rfl (by simp [hget]) (.inl ⟨_, rfl⟩) (fun h => by cases h) (delete_self s p.tokenId)
      by_cases hidle : settings.sessionIdleTimeoutSeconds < totalSeconds (now - x.lastActivityAt)
      · have hstep : step settings p s (.request now) = ⟨s, .request now,
            some (.unauthorized "idle_timeout"), s.delete p.tokenId⟩ := by
          simp [step, dispatch, hhuman, touchOrCreate, hget, habsolute, hidle, SessionExpiredError.reason]
        rw [hstep]
        exact .rejected rfl (by simp [hget]) (.inl ⟨_, rfl⟩) (fun h => by cases h) (delete_self s p.tokenId)
      · have hstep : step settings p s (.request now) = ⟨s, .request now, some .next,
            s.hsetExpire p.tokenId { x with lastActivityAt := now }
              (max 1 (settings.sessionAbsoluteTimeoutSeconds -
                truncate (totalSeconds (now - x.createdAt)))) now⟩ := by
          simp [step, dispatch, hhuman, touchOrCreate, hget, habsolute, hidle]
        rw [hstep]
        exact .touched x rfl hget rfl (by simp [Step.Ends]) (not_lt.1 habsolute) rfl

theorem step_before (settings : Settings) (p : Principal) (s : Sessions) (e : Event) :
    (step settings p s e).before = s ∧ (step settings p s e).event = e := by
  cases e with
  | request now => exact ⟨rfl, rfl⟩
  | revoke now => exact ⟨rfl, rfl⟩

/-- What a touch leaves of the key. -/
theorem hsetExpire_self {x y : Session} {seconds : Int}
    (h : s.hsetExpire p.tokenId x seconds now p.tokenId = some y) :
    y = { x with expiresAt := now + seconds * 1000000 } := by
  unfold Sessions.hsetExpire at h
  split_ifs at h with hseconds
  · rw [delete_self] at h
    cases h
  · rw [Function.update_self] at h
    exact (Option.some.inj h).symm

theorem hsetExpire_of_pos {x : Session} {seconds : Int} (h : 0 < seconds) :
    s.hsetExpire p.tokenId x seconds now p.tokenId =
      some { x with expiresAt := now + seconds * 1000000 } := by
  rw [Sessions.hsetExpire, if_neg (by omega), Function.update_self]

theorem totalSeconds_zero : totalSeconds 0 = 0 := by
  have hzero : ((0 : Int) : Rat) / 1000000 = 0 := by norm_num
  rw [totalSeconds, hzero, Binary64.toRat_zero]

/-- Doubles tell a microsecond from a whole number of seconds below `2 ^ 33`. -/
theorem lt_totalSeconds {n : Nat} {d : Int} (hn : n < 2 ^ 33) (hd : (n * 1000000 : Int) < d) :
    n < totalSeconds d := by
  have hexact : Binary64.Exact (((n * 2 ^ 20 + 1 : Nat) : Rat) / 2 ^ 20) :=
    Binary64.exact_div_two_pow (by omega) (by omega)
  have hle : (((n * 2 ^ 20 + 1 : Nat) : Rat) / 2 ^ 20) ≤ d / 1000000 := by
    have hd' : ((n : Rat) * 1000000 + 1) ≤ d := by exact_mod_cast hd
    rw [div_le_div_iff₀ (by norm_num) (by norm_num)]
    push_cast
    linarith
  have hround := Binary64.le_toRat hexact hle
  refine lt_of_lt_of_le ?_ hround
  rw [lt_div_iff₀ (by norm_num)]
  push_cast
  linarith

theorem le_of_totalSeconds_le {n : Nat} {d : Int} (hn : n < 2 ^ 33) (hd : totalSeconds d ≤ n) :
    d ≤ n * 1000000 := by
  by_contra hlt
  exact absurd hd (not_le.2 (lt_totalSeconds hn (not_le.1 hlt)))

/-- The whole seconds are not more than the time that has passed. -/
theorem truncate_totalSeconds_le {n : Nat} {d : Int} (hn : n < 2 ^ 33) (hpos : 0 ≤ d)
    (hd : totalSeconds d ≤ n) : truncate (totalSeconds d) * 1000000 ≤ d := by
  obtain ⟨k, rfl⟩ := Int.eq_ofNat_of_zero_le hpos
  have hk := le_of_totalSeconds_le hn hd
  have hexact : Binary64.Exact ((((k / 1000000 + 1) * 2 ^ 20 - 1 : Nat) : Rat) / 2 ^ 20) :=
    Binary64.exact_div_two_pow (by omega) (by omega)
  have hle : (((k : Int) : Rat) / 1000000) ≤ (((k / 1000000 + 1) * 2 ^ 20 - 1 : Nat) : Rat) / 2 ^ 20 := by
    have hmod : (k : Rat) ≤ ((k / 1000000 : Nat) : Rat) * 1000000 + 999999 := by
      exact_mod_cast (by omega : k ≤ k / 1000000 * 1000000 + 999999)
    rw [div_le_div_iff₀ (by norm_num) (by norm_num), Nat.cast_sub (by omega)]
    push_cast at hmod ⊢
    linarith
  have hround : totalSeconds k < (k / 1000000 : Nat) + 1 := by
    refine lt_of_le_of_lt (Binary64.toRat_le hexact hle) ?_
    rw [div_lt_iff₀ (by norm_num), Nat.cast_sub (by omega)]
    push_cast
    linarith
  have hnonneg : 0 ≤ totalSeconds k := by
    rw [← totalSeconds_zero]
    exact Binary64.toRat_mono (div_le_div_of_nonneg_right (by exact_mod_cast hpos) (by norm_num))
  have hfloor : truncate (totalSeconds k) ≤ (k / 1000000 : Nat) := by
    rw [truncate, if_pos hnonneg, Int.floor_le_iff]
    exact_mod_cast hround
  omega

/-! ## Runs -/

/-- Without a key, whoever has to find one does not come. -/
theorem gone_of_finds {events : List Event} (hs : s p.tokenId = none)
    (hfinds : ∀ a ∈ run settings p s events, a.Finds p) :
    ∀ a ∈ run settings p s events, ¬ a.IsRequest ∧ ¬ a.Passes := by
  induction events generalizing s with
  | nil => exact fun a ha => by cases ha
  | cons e events ih =>
    have hnone : ∀ now, s.hgetall p.tokenId now = none := by
      intro now
      rw [Sessions.hgetall, hs]
      rfl
    have hhead := hfinds _ (List.mem_cons_self ..)
    cases e with
    | request now => exact absurd (hnone now) (hhead now rfl)
    | revoke now =>
      intro a ha
      rcases List.mem_cons.1 ha with rfl | ha
      · exact ⟨(fun ⟨_, h⟩ => by cases h), (fun h => by cases h)⟩
      · refine ih (delete_self s p.tokenId) (fun b hb => hfinds b (List.mem_cons_of_mem _ hb)) a ha

section
variable (hhuman : p.tenantId = none)
include hhuman

/-- Whoever finds the key of the first request is let through within the absolute timeout. -/
theorem passes_of_finds {events : List Event} (t₀ : Int)
    (hs : ∀ x, s p.tokenId = some x → x.createdAt = t₀)
    (hfinds : ∀ a ∈ run settings p s events, a.Finds p) :
    (run settings p s events).Pairwise (fun a b => a.Ends → ¬ b.Passes) ∧
      ∀ a ∈ run settings p s events, a.Passes →
        totalSeconds (a.event.now - t₀) ≤ settings.sessionAbsoluteTimeoutSeconds := by
  induction events generalizing s with
  | nil => exact ⟨.nil, fun a ha => by cases ha⟩
  | cons e events ih =>
    have htail : ∀ a ∈ run settings p (step settings p s e).after events, a.Finds p :=
      fun a ha => hfinds a (List.mem_cons_of_mem _ ha)
    have hgone : (step settings p s e).after p.tokenId = none → ¬ (step settings p s e).Passes →
        (run settings p s (e :: events)).Pairwise (fun a b => a.Ends → ¬ b.Passes) ∧
        ∀ a ∈ run settings p s (e :: events), a.Passes →
          totalSeconds (a.event.now - t₀) ≤ settings.sessionAbsoluteTimeoutSeconds := by
      intro hnone hpasses
      obtain ⟨hpairwise, hbound⟩ := ih (fun x hx => by rw [hnone] at hx; cases hx) htail
      refine ⟨.cons (fun b hb _ => (gone_of_finds hnone htail b hb).2) hpairwise, fun a ha hpass => ?_⟩
      rcases List.mem_cons.1 ha with rfl | ha
      · exact absurd hpass hpasses
      · exact hbound a ha hpass
    have hbefore := (step_before settings p s e).1
    have hhead := hfinds _ (List.mem_cons_self ..)
    cases step_effect settings hhuman s e with
    | revoked _ hpasses hnone => exact hgone hnone hpasses
    | rejected _ _ _ hpasses hnone => exact hgone hnone hpasses
    | began hrequest hnone _ _ _ =>
      have hfound := hhead _ hrequest
      rw [hbefore] at hfound
      exact absurd hnone hfound
    | touched x hrequest hget _ hends hbound hafter =>
      have hcreated := hs x (Sessions.hgetall_some.1 hget).1
      rw [hcreated] at hbound
      obtain ⟨hpairwise, hlater⟩ := ih (fun y hy => by
        rw [hafter] at hy
        rw [hsetExpire_self hy]
        exact hcreated) htail
      refine ⟨.cons (fun b _ h => absurd h hends) hpairwise, fun a ha hpass => ?_⟩
      rcases List.mem_cons.1 ha with rfl | ha
      · rw [hrequest]
        exact hbound
      · exact hlater a ha hpass

/-! ## The other direction -/

/-- Without a key, a request is let through. -/
theorem no_request_of_gone {events : List Event} (hs : s p.tokenId = none)
    (hpass : ∀ a ∈ run settings p s events, ¬ a.Passes) :
    ∀ a ∈ run settings p s events, ¬ a.IsRequest := by
  induction events generalizing s with
  | nil => exact fun a ha => by cases ha
  | cons e events ih =>
    have hnone : ∀ now, s.hgetall p.tokenId now = none := by
      intro now
      rw [Sessions.hgetall, hs]
      rfl
    cases step_effect settings hhuman s e with
    | revoked hrevoke _ hgone =>
      intro a ha
      rcases List.mem_cons.1 ha with rfl | ha
      · rintro ⟨now, hnow⟩
        rw [hrevoke] at hnow
        cases hnow
      · exact ih hgone (fun b hb => hpass b (List.mem_cons_of_mem _ hb)) a ha
    | rejected _ hget _ _ _ => exact absurd (hnone _) hget
    | touched x _ hget _ _ _ _ =>
      rw [hnone] at hget
      cases hget
    | began _ _ hpasses _ _ => exact absurd hpasses (hpass _ (List.mem_cons_self ..))

/-- A session that has begun at `t₀` and lives until its absolute timeout at least. -/
def Begun (p : Principal) (absolute : Nat) (t₀ : Int) (s : Sessions) : Prop :=
  ∃ x, s p.tokenId = some x ∧ x.createdAt = t₀ ∧ t₀ + absolute * 1000000 ≤ x.expiresAt

theorem finds_of_begun {events : List Event} {t₀ : Int}
    (hsmall : settings.sessionAbsoluteTimeoutSeconds < 2 ^ 33)
    (hs : Begun p settings.sessionAbsoluteTimeoutSeconds t₀ s)
    (hsorted : events.Pairwise fun e e' => e.now ≤ e'.now) (hlater : ∀ e ∈ events, t₀ ≤ e.now)
    (hended : (run settings p s events).Pairwise fun a b => a.Ends → ¬ b.Passes)
    (hbound : ∀ a ∈ run settings p s events, a.Passes →
      totalSeconds (a.event.now - t₀) ≤ settings.sessionAbsoluteTimeoutSeconds) :
    ∀ a ∈ run settings p s events, a.Finds p := by
  induction events generalizing s with
  | nil => exact fun a ha => by cases ha
  | cons e events ih =>
    obtain ⟨hends, hended'⟩ := List.pairwise_cons.1 hended
    have hbefore := (step_before settings p s e).1
    have hpast : ¬ (step settings p s e).Passes → (step settings p s e).Ends →
        (step settings p s e).after p.tokenId = none → (step settings p s e).Finds p →
        ∀ a ∈ run settings p s (e :: events), a.Finds p := by
      intro _ hend hnone hfinds a ha
      rcases List.mem_cons.1 ha with rfl | ha
      · exact hfinds
      · have hrequest := no_request_of_gone hhuman hnone (fun b hb => hends b hb hend) a ha
        exact fun now hnow => absurd ⟨now, hnow⟩ hrequest
    cases step_effect settings hhuman s e with
    | revoked hrevoke hpasses hnone =>
      refine hpast hpasses (.inr ⟨_, hrevoke⟩) hnone fun now hnow => ?_
      rw [hrevoke] at hnow
      cases hnow
    | rejected hrequest hget hend hpasses hnone =>
      refine hpast hpasses hend hnone fun now hnow => ?_
      rw [hrequest] at hnow
      cases hnow
      rw [hbefore]
      exact hget
    | @began now hrequest hnone hpasses _ _ =>
      -- the time to live has run out, so the absolute timeout has passed
      obtain ⟨x, hx, _, hexpires⟩ := hs
      have hout : x.expiresAt < now := by
        by_contra hlive
        have hsome : s.hgetall p.tokenId now = some x := Sessions.hgetall_some.2 ⟨hx, not_lt.1 hlive⟩
        rw [hnone] at hsome
        cases hsome
      have hwithin := hbound _ (List.mem_cons_self ..) hpasses
      rw [hrequest] at hwithin
      have hle := le_of_totalSeconds_le hsmall hwithin
      have hnow : Event.now (.request now) = now := rfl
      omega
    | @touched now x hrequest hget _ _ hwithin hafter =>
      obtain ⟨hx, _⟩ := Sessions.hgetall_some.1 hget
      obtain ⟨x', hx', hcreated, hexpires⟩ := hs
      obtain rfl : x = x' := Option.some.inj (hx.symm.trans hx')
      have heq : e = .request now := (step_before settings p s e).2.symm.trans hrequest
      have hpos : 0 ≤ now - x.createdAt := by
        have hnow := hlater e (List.mem_cons_self ..)
        rw [heq] at hnow
        have heventnow : Event.now (.request now) = now := rfl
        omega
      have htruncate := truncate_totalSeconds_le hsmall hpos hwithin
      have hbegun : Begun p settings.sessionAbsoluteTimeoutSeconds t₀ (step settings p s e).after := by
        generalize truncate (totalSeconds (now - x.createdAt)) = k at hafter htruncate
        have hseconds : 0 < max 1 ((settings.sessionAbsoluteTimeoutSeconds : Int) - k) := by omega
        refine ⟨_, (congrFun hafter p.tokenId).trans (hsetExpire_of_pos hseconds), hcreated, ?_⟩
        show t₀ + _ ≤ now + _
        omega
      have htail := ih hbegun (List.pairwise_cons.1 hsorted).2
        (fun e' he' => hlater e' (List.mem_cons_of_mem _ he')) hended'
        (fun a ha => hbound a (List.mem_cons_of_mem _ ha))
      intro a ha
      rcases List.mem_cons.1 ha with rfl | ha
      · intro now' hnow'
        rw [hrequest] at hnow'
        cases hnow'
        rw [hbefore, hget]
        exact fun h => by cases h
      · exact htail a ha

/-- When every request but the first event finds the key. -/
theorem ended_of_finds (events : List Event)
    (hfinds : ∀ a ∈ (run settings p (fun _ => none) events).tail, a.Finds p) :
    StaysEnded settings (run settings p (fun _ => none) events) := by
  cases events with
  | nil =>
    refine ⟨.nil, fun earlier first rest h => ?_⟩
    exact absurd h.symm (List.append_ne_nil_of_right_ne_nil _ (List.cons_ne_nil _ _))
  | cons e events =>
    have htail : ∀ a ∈ run settings p (step settings p (fun _ => none) e).after events, a.Finds p :=
      hfinds
    cases step_effect settings hhuman (fun _ => none) e with
    | revoked hrevoke hpasses hnone =>
      have hgone := gone_of_finds hnone htail
      have hpass : ∀ a ∈ run settings p (fun _ => none) (e :: events), ¬ a.IsRequest ∧ ¬ a.Passes := by
        intro a ha
        rcases List.mem_cons.1 ha with rfl | ha
        · refine ⟨fun ⟨now, hnow⟩ => ?_, hpasses⟩
          rw [hrevoke] at hnow
          cases hnow
        · exact hgone a ha
      refine ⟨List.pairwise_of_forall_mem_list fun _ _ b hb _ => (hpass b hb).2, ?_⟩
      intro earlier first rest htrace hrequest
      exact absurd hrequest (hpass first (by rw [htrace]; simp)).1
    | rejected _ hget _ _ _ => exact absurd rfl hget
    | touched x _ hget _ _ _ _ => cases hget
    | @began now hrequest _ hpasses hends hafter =>
      obtain ⟨hpairwise, hbound⟩ := passes_of_finds hhuman now (fun x hx => by
        rw [hafter] at hx
        rw [hsetExpire_self hx]) htail
      refine ⟨.cons (fun b _ h => absurd h hends) hpairwise, ?_⟩
      intro earlier first rest htrace _ hearlier b hb hpass
      -- the first event is the first request
      cases earlier with
      | cons a earlier =>
        have ha : step settings p (fun _ => none) e = a := (List.cons.inj htrace).1
        exact absurd ⟨now, ha ▸ hrequest⟩ (hearlier a (List.mem_cons_self ..))
      | nil =>
        obtain ⟨rfl, rfl⟩ := List.cons.inj htrace
        rw [hrequest]
        rcases List.mem_cons.1 hb with rfl | hb
        · rw [hrequest]
          show totalSeconds (now - now) ≤ _
          rw [sub_self, totalSeconds_zero]
          exact Nat.cast_nonneg _
        · exact hbound b hb hpass

/-- Only then, for a timeout that doubles can tell from its neighbours. -/
theorem finds_of_ended (events : List Event) (hpos : 0 < settings.sessionAbsoluteTimeoutSeconds)
    (hsmall : settings.sessionAbsoluteTimeoutSeconds < 2 ^ 33)
    (hsorted : events.Pairwise fun e e' => e.now ≤ e'.now)
    (hstays : StaysEnded settings (run settings p (fun _ => none) events)) :
    ∀ a ∈ (run settings p (fun _ => none) events).tail, a.Finds p := by
  cases events with
  | nil => exact fun a ha => by cases ha
  | cons e events =>
    obtain ⟨hends, hended⟩ := List.pairwise_cons.1 hstays.ended
    obtain ⟨hlater, hsorted⟩ := List.pairwise_cons.1 hsorted
    show ∀ a ∈ run settings p (step settings p (fun _ => none) e).after events, a.Finds p
    cases step_effect settings hhuman (fun _ => none) e with
    | revoked hrevoke _ hnone =>
      intro a ha now hnow
      have hrequest := no_request_of_gone hhuman hnone (fun b hb => hends b hb (.inr ⟨_, hrevoke⟩)) a ha
      exact absurd ⟨now, hnow⟩ hrequest
    | rejected _ hget _ _ _ => exact absurd rfl hget
    | touched x _ hget _ _ _ _ => cases hget
    | @began now hrequest _ _ _ hafter =>
      have heq : e = .request now := (step_before settings p _ e).2.symm.trans hrequest
      have hbegun : Begun p settings.sessionAbsoluteTimeoutSeconds now
          (step settings p (fun _ => none) e).after := by
        have hseconds : 0 < (settings.sessionAbsoluteTimeoutSeconds : Int) := by omega
        exact ⟨_, (congrFun hafter p.tokenId).trans (hsetExpire_of_pos hseconds), rfl, le_refl _⟩
      refine finds_of_begun hhuman hsmall hbegun hsorted (fun e' he' => ?_) hended fun a ha hpass => ?_
      · have hle := hlater e' he'
        rw [heq] at hle
        exact hle
      · have hwithin := hstays.absolute [] _ _ rfl ⟨now, hrequest⟩ (fun b hb => by cases hb) a
          (List.mem_cons_of_mem _ ha) hpass
        rw [hrequest] at hwithin
        exact hwithin

end

/-- **An ended session stays ended** in every run whose requests all find the key of the token but for
the first event; and, at increasing moments, only in those. -/
theorem ended_iff_finds (settings : Settings) (p : Principal) (events : List Event)
    (hhuman : p.tenantId = none) :
    ((∀ a ∈ (run settings p (fun _ => none) events).tail, a.Finds p) →
      StaysEnded settings (run settings p (fun _ => none) events)) ∧
    (0 < settings.sessionAbsoluteTimeoutSeconds → settings.sessionAbsoluteTimeoutSeconds < 2 ^ 33 →
      events.Pairwise (fun e e' => e.now ≤ e'.now) →
      StaysEnded settings (run settings p (fun _ => none) events) →
      ∀ a ∈ (run settings p (fun _ => none) events).tail, a.Finds p) :=
  ⟨ended_of_finds hhuman events, fun hpos hsmall hsorted hstays =>
    finds_of_ended hhuman events hpos hsmall hsorted hstays⟩

/-! ## A logout -/

def sampleSettings : Settings := ⟨900, 28800⟩

def samplePrincipal : Principal := ⟨"officer.jane", none, "tok-1"⟩

/-- Logging out is the last thing the client does with the token. -/
theorem ended_iff_finds_logout : StaysEnded sampleSettings
    (run sampleSettings samplePrincipal (fun _ => none) [.request 0, .revoke 1000000]) := by
  refine (ended_iff_finds sampleSettings samplePrincipal _ rfl).1 fun a ha now hnow => ?_
  rw [List.mem_singleton.1 ha] at hnow
  cases hnow

/-- One more request after it begins a new session. -/
theorem not_forall_ended : ¬ ∀ events : List Event, events.Pairwise (fun e e' => e.now ≤ e'.now) →
    StaysEnded sampleSettings (run sampleSettings samplePrincipal (fun _ => none) events) := by
  intro h
  have hsorted : [Event.request 0, .revoke 1000000, .request 2000000].Pairwise
      (fun e e' => e.now ≤ e'.now) := by simp [Event.now]
  have hended := (h _ hsorted).ended
  obtain ⟨_, hrevoke⟩ := List.pairwise_cons.1 hended
  obtain ⟨hlast, _⟩ := List.pairwise_cons.1 hrevoke
  have hnone : ∀ (s : Sessions) now, (s.delete "tok-1").hgetall "tok-1" now = none := by
    intro s now
    rw [Sessions.hgetall, delete_self s "tok-1"]
    rfl
  refine hlast _ (List.mem_cons_self ..) (.inr ⟨_, rfl⟩) ?_
  cases step_effect sampleSettings (p := samplePrincipal) rfl (revoke "tok-1" _) (.request 2000000) with
  | began _ _ hpasses _ _ => exact hpasses
  | revoked hrevoked _ _ => cases hrevoked
  | rejected hrequest hget _ _ _ => exact absurd (hnone _ _) hget
  | touched x _ _ hpasses _ _ _ => exact hpasses

end RegEngine.Security
