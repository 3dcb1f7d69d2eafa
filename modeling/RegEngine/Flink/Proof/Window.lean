import Mathlib.Algebra.Group.Prod
import Mathlib.Algebra.Order.Ring.Rat
import Mathlib.Data.Int.ConditionallyCompleteOrder
import Mathlib.Logic.Function.Basic
import RegEngine.Flink.StreamProcessor
import RegEngine.Lib.EvictingLog

/-!
# The window of a late trade

A timer prunes nothing that a later trade could still count (`Synced`), so the entries of a key are those
that the trades themselves left. A trade in its order finds exactly its window there. A late one finds the
newer trades as well, and does not find what they have evicted.
-/

namespace RegEngine.Flink

open Lib Lib.EvictingLog

variable {windowSeconds : Nat} {s s' : Stream} {key : String} {trade : Trade}

/-- The start of a window. -/
abbrev cutoffMs (windowSeconds : Nat) (timestampMs : Int) : Int := timestampMs - windowMs windowSeconds

/-- The trades of a window: received until now, and in `[t - window_ms, t]`. -/
abbrev lastWindow (windowSeconds : Nat) (received : List Trade) (trade : Trade) : List Trade :=
  window Trade.timestampMs (cutoffMs windowSeconds) (received ++ [trade]) trade

/-- Their number and sums. -/
def expected (windowSeconds : Nat) (received : List Trade) (trade : Trade) : WindowState :=
  .of windowSeconds ((lastWindow windowSeconds received trade).map Trade.entry)

/-- Count, order value and margin. -/
def amount (trade : Trade) : Nat × Rat × Rat :=
  (1, trade.entry.orderValue, trade.entry.marginCollected)

/-- The newer trades that came in before `trade` and are still there add up to the trades of its window
that a newer one has evicted. -/
def Balanced (windowSeconds : Nat) (received : List Trade) (trade : Trade) : Prop :=
  total amount (newer Trade.timestampMs
      (kept Trade.timestampMs (cutoffMs windowSeconds) received) trade) =
    total amount (window Trade.timestampMs (cutoffMs windowSeconds)
      (evicted Trade.timestampMs (cutoffMs windowSeconds) received) trade)

theorem windowMs_nonneg (windowSeconds : Nat) : 0 ≤ windowMs windowSeconds := by
  unfold windowMs
  omega

theorem cutoffMs_le (t : Int) : cutoffMs windowSeconds t ≤ t := by
  have h := windowMs_nonneg windowSeconds
  simp only [cutoffMs]
  omega

theorem monotone_cutoffMs : Monotone (cutoffMs windowSeconds) := by
  intro t t' h
  simp only [cutoffMs]
  omega

/-- A trade in its order is balanced. -/
theorem Balanced.of_inOrder {received : List Trade}
    (h : ∀ r ∈ received, r.timestampMs ≤ trade.timestampMs) : Balanced windowSeconds received trade := by
  rw [Balanced, newer_eq_nil h, window_evicted_eq_nil monotone_cutoffMs h]

/-! ## Totals -/

theorem total_amount (l : List Trade) : total amount l = (l.length,
    ((l.map Trade.entry).map (·.orderValue)).sum, ((l.map Trade.entry).map (·.marginCollected)).sum) := by
  induction l with
  | nil => rfl
  | cons trade l ih =>
    have hcons : total amount (trade :: l) = amount trade + total amount l := by
      simp [total]
    rw [hcons, ih]
    simp [amount, Nat.add_comm]

theorem windowState_eq_iff {l l' : List Trade} :
    WindowState.of windowSeconds (l.map Trade.entry) = .of windowSeconds (l'.map Trade.entry) ↔
      total amount l = total amount l' := by
  rw [total_amount, total_amount]
  simp only [WindowState.of, WindowState.mk.injEq, Prod.mk.injEq, List.length_map]
  tauto

/-! ## Timers -/

/-- The entries of a key that a trade after the watermark can still count are those that the trades of the
key have left. -/
def Synced (windowSeconds : Nat) (s : Stream) : Prop :=
  ∀ key t, (∀ w ∈ s.watermark, w < t) →
    surviving (cutoffMs windowSeconds t) (s.keyed key).entries =
      surviving (cutoffMs windowSeconds t)
        ((kept Trade.timestampMs (cutoffMs windowSeconds) (s.trades key)).map Trade.entry)

theorem surviving_surviving {a b : Int} (h : a ≤ b) (entries : List Entry) :
    surviving b (surviving a entries) = surviving b entries := by
  rw [surviving, surviving, surviving, List.filter_filter]
  apply List.filter_congr
  intro e _
  have hle : b ≤ e.eventTimeMs → a ≤ e.eventTimeMs := h.trans
  simpa using hle

/-- The watermark is behind every trade that may come. -/
theorem Reachable.watermark_lt (h : Reachable windowSeconds s) (hbounds : s.InBounds trade) :
    ∀ w ∈ s.watermark, w < trade.timestampMs := by
  have hbehind : ∀ w ∈ s.watermark, ∃ r ∈ s.received,
      w < r.2.timestampMs - allowedLatenessSeconds * 1000 := by
    clear hbounds
    induction h with
    | start =>
      intro w hw
      cases hw
    | step _ hstep ih =>
      cases hstep with
      | element hb =>
        intro w hw
        obtain ⟨r, hr, hlt⟩ := ih w hw
        exact ⟨r, List.mem_append_left _ hr, hlt⟩
      | watermark hlater hmax =>
        intro w hw
        cases hw
        exact hmax
      | timer hregistered hpassed => exact ih
  intro w hw
  obtain ⟨r, hr, hlt⟩ := hbehind w hw
  exact hlt.trans_le (hbounds r hr)

/-- What a trade leaves of the trades of its key. -/
theorem push_kept (received : List Trade) (trade : Trade) :
    surviving (cutoffMs windowSeconds trade.timestampMs)
        ((kept Trade.timestampMs (cutoffMs windowSeconds) received).map Trade.entry) ++ [trade.entry] =
      (push Trade.timestampMs (cutoffMs windowSeconds)
        (kept Trade.timestampMs (cutoffMs windowSeconds) received) trade).map Trade.entry := by
  rw [push, List.map_append, surviving, List.filter_map]
  rfl

theorem trades_element (s : Stream) (key : String) (trade : Trade) :
    (s.element windowSeconds key trade).trades key = s.trades key ++ [trade] := by
  simp [Stream.trades, Stream.element]

theorem trades_element_of_ne {other : String} (h : other ≠ key) :
    (s.element windowSeconds key trade).trades other = s.trades other := by
  simp [Stream.trades, Stream.element, Ne.symm h]

theorem trades_fire (key : String) (timestamp : Int) (other : String) :
    (s.fire windowSeconds key timestamp).trades other = s.trades other := rfl

/-- The entries after a trade, by what they were before. -/
theorem Synced.entries (h : Synced windowSeconds s) (hlt : ∀ w ∈ s.watermark, w < trade.timestampMs)
    (key : String) :
    (processElement windowSeconds trade (s.keyed key)).1.entries =
      (kept Trade.timestampMs (cutoffMs windowSeconds) (s.trades key ++ [trade])).map Trade.entry := by
  rw [kept_concat, ← push_kept, ← h key _ hlt]
  rfl

theorem Synced.step (h : Synced windowSeconds s) (hreach : Reachable windowSeconds s)
    (hstep : Step windowSeconds s s') : Synced windowSeconds s' := by
  cases hstep with
  | @element key trade hbounds =>
    intro other t ht
    by_cases hkey : other = key
    · subst hkey
      rw [trades_element, ← h.entries (hreach.watermark_lt hbounds) other]
      simp [Stream.element]
    · rw [trades_element_of_ne hkey]
      simpa [Stream.element, Function.update_of_ne hkey] using h other t ht
  | watermark hlater hbehind =>
    intro other t ht
    apply h other t
    intro w hw
    exact (hlater w hw).trans_lt (ht _ rfl)
  | @timer key timestamp hregistered hpassed =>
    intro other t ht
    by_cases hkey : other = key
    · subst hkey
      obtain ⟨w, hw, hle⟩ := hpassed
      -- what the timer prunes is before the window of every trade that may come
      have hcutoff : timestamp - windowMs windowSeconds ≤ cutoffMs windowSeconds t := by
        have hlt := ht w hw
        simp only [cutoffMs]
        omega
      rw [trades_fire, ← h other t ht]
      simp [Stream.fire, onTimer, surviving_surviving hcutoff]
    · rw [trades_fire, ← h other t ht]
      simp [Stream.fire, Function.update_of_ne hkey]

theorem Reachable.synced (h : Reachable windowSeconds s) : Synced windowSeconds s := by
  induction h with
  | start =>
    intro key t _
    rfl
  | step hreach hstep ih => exact ih.step hreach hstep

/-- The window state of a trade is that of the trades which its key has kept. -/
theorem emitted_eq (h : Reachable windowSeconds s) (hbounds : s.InBounds trade) (key : String) :
    s.emitted windowSeconds key trade = .of windowSeconds
      ((push Trade.timestampMs (cutoffMs windowSeconds)
        (kept Trade.timestampMs (cutoffMs windowSeconds) (s.trades key)) trade).map Trade.entry) := by
  have hentries := h.synced.entries (h.watermark_lt hbounds) key
  rw [kept_concat] at hentries
  rw [← hentries]
  rfl

/-- A trade that is not late is counted in exactly its window. -/
theorem emitted_of_inOrder (h : Reachable windowSeconds s) (hbounds : s.InBounds trade)
    (horder : ∀ r ∈ s.trades key, r.timestampMs ≤ trade.timestampMs) :
    s.emitted windowSeconds key trade = expected windowSeconds (s.trades key) trade := by
  rw [emitted_eq h hbounds, expected, windowState_eq_iff, total_push_iff _ cutoffMs_le]
  exact Balanced.of_inOrder horder

/-- **The window state of a trade is that of its window just when it is balanced**, in every run. -/
theorem window_exact_iff (windowSeconds : Nat) (s : Stream) (key : String) (trade : Trade)
    (h : Reachable windowSeconds s) (hbounds : s.InBounds trade) :
    s.emitted windowSeconds key trade = expected windowSeconds (s.trades key) trade ↔
      Balanced windowSeconds (s.trades key) trade := by
  rw [emitted_eq h hbounds, expected, windowState_eq_iff]
  exact total_push_iff amount cutoffMs_le _ _

/-! ## A trade that is a second late -/

/-- A key that has received one trade. -/
def oneTrade : Stream :=
  ({} : Stream).element slidingWindowSeconds "B1:C1" ⟨2000, some 100, some 20⟩

theorem reachable_oneTrade : Reachable slidingWindowSeconds oneTrade :=
  .step .start (.element fun r hr => by cases hr)

theorem inBounds_oneTrade : oneTrade.InBounds ⟨1000, some 100, some 20⟩ := by
  intro r hr
  rw [show oneTrade.received = [("B1:C1", ⟨2000, some 100, some 20⟩)] from rfl] at hr
  rw [List.mem_singleton.1 hr]
  decide

theorem window_exact_late :
    oneTrade.emitted slidingWindowSeconds "B1:C1" ⟨1000, some 100, some 20⟩ =
        expected slidingWindowSeconds (oneTrade.trades "B1:C1") ⟨1000, some 100, some 20⟩ ↔
      Balanced slidingWindowSeconds (oneTrade.trades "B1:C1") ⟨1000, some 100, some 20⟩ :=
  window_exact_iff _ _ _ _ reachable_oneTrade inBounds_oneTrade

/-- The newer trade is counted with the late one. -/
theorem not_forall_window_exact :
    ¬ ∀ (s : Stream) (key : String) (trade : Trade), Reachable slidingWindowSeconds s →
      s.InBounds trade → s.emitted slidingWindowSeconds key trade =
        expected slidingWindowSeconds (s.trades key) trade := by
  intro h
  have hcount := congrArg WindowState.tradeCount
    (h oneTrade "B1:C1" ⟨1000, some 100, some 20⟩ reachable_oneTrade inBounds_oneTrade)
  have htwo : (oneTrade.emitted slidingWindowSeconds "B1:C1" ⟨1000, some 100, some 20⟩).tradeCount = 2 := by
    decide +kernel
  have hone : (expected slidingWindowSeconds (oneTrade.trades "B1:C1")
      ⟨1000, some 100, some 20⟩).tradeCount = 1 := by
    decide +kernel
  omega

end RegEngine.Flink
