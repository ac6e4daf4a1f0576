import Mathlib.Algebra.Order.Ring.Defs
import Mathlib.Algebra.Order.Field.Basic
import Mathlib.Tactic.LinearCombination

/-!
# A margin ledger

The bookkeeping behind an account that trades on margin, said without positions:
money is free (`cash`) or held as collateral (`locked`), profits and losses are
`realised` when a position is settled, fees are paid, and a loss beyond what a
position can bear is `forgiven` instead of taken from the cash.

- `Ledger.Balanced`: no money is created or lost: what is there is what was
  there at first, plus what was realised, minus the fees, plus what was forgiven.
- `lock`, `release`, `settle`: the three movements. Each keeps the balance
  (`lock_balanced`, `release_balanced`, `settle_balanced`), and the cash stays
  non-negative (`lock_cash_nonneg`, `release_cash_nonneg`, `settle_cash_nonneg`).
-/

namespace FlashEdge

universe u

structure Ledger (K : Type u) where
  cash : K
  locked : K
  realised : K
  fees : K
  forgiven : K

namespace Ledger

variable {K : Type u} [Field K] [LinearOrder K]

/-- No money is created or lost. -/
def Balanced (initial : K) (l : Ledger K) : Prop :=
  l.cash + l.locked = initial + l.realised - l.fees + l.forgiven

/-- Cash becomes collateral, and a fee is paid. -/
def lock (l : Ledger K) (amount fee : K) : Ledger K :=
  { l with cash := l.cash - (amount + fee), locked := l.locked + amount, fees := l.fees + fee }

/-- Collateral becomes cash. -/
def release (l : Ledger K) (amount : K) : Ledger K :=
  { l with cash := l.cash + amount, locked := l.locked - amount }

/-- Collateral is settled with a profit or loss and a fee: what is left of it is
paid out, and if less than nothing is left the rest is forgiven. -/
def settle (l : Ledger K) (collateral pnl fee : K) : Ledger K :=
  let returned := collateral + pnl - fee
  { cash := l.cash + max returned 0
    locked := l.locked - collateral
    realised := l.realised + pnl
    fees := l.fees + fee
    forgiven := l.forgiven + max (-returned) 0 }

omit [LinearOrder K] in
theorem lock_balanced {initial : K} {l : Ledger K} (h : l.Balanced initial) (amount fee : K) :
    (l.lock amount fee).Balanced initial := by
  have htotal : l.cash + l.locked = initial + l.realised - l.fees + l.forgiven := h
  show l.cash - (amount + fee) + (l.locked + amount) =
    initial + l.realised - (l.fees + fee) + l.forgiven
  linear_combination htotal

omit [LinearOrder K] in
theorem release_balanced {initial : K} {l : Ledger K} (h : l.Balanced initial) (amount : K) :
    (l.release amount).Balanced initial := by
  have htotal : l.cash + l.locked = initial + l.realised - l.fees + l.forgiven := h
  show l.cash + amount + (l.locked - amount) = initial + l.realised - l.fees + l.forgiven
  linear_combination htotal

variable [IsStrictOrderedRing K]

/-- A number is its positive part minus its negative part. -/
theorem max_sub_max_neg (x : K) : max x 0 - max (-x) 0 = x := by
  rcases le_total 0 x with hx | hx
  · rw [max_eq_left hx, max_eq_right (neg_nonpos.mpr hx), sub_zero]
  · rw [max_eq_right hx, max_eq_left (neg_nonneg.mpr hx), zero_sub, neg_neg]

theorem settle_balanced {initial : K} {l : Ledger K} (h : l.Balanced initial)
    (collateral pnl fee : K) : (l.settle collateral pnl fee).Balanced initial := by
  have htotal : l.cash + l.locked = initial + l.realised - l.fees + l.forgiven := h
  have hparts := max_sub_max_neg (collateral + pnl - fee)
  show l.cash + max (collateral + pnl - fee) 0 + (l.locked - collateral) =
    initial + (l.realised + pnl) - (l.fees + fee) +
      (l.forgiven + max (-(collateral + pnl - fee)) 0)
  linear_combination htotal + hparts

theorem lock_cash_nonneg {l : Ledger K} {amount fee : K} (h : amount + fee ≤ l.cash) :
    0 ≤ (l.lock amount fee).cash :=
  sub_nonneg.mpr h

theorem release_cash_nonneg {l : Ledger K} {amount : K} (h : 0 ≤ l.cash) (ha : 0 ≤ amount) :
    0 ≤ (l.release amount).cash :=
  add_nonneg h ha

theorem settle_cash_nonneg {l : Ledger K} (h : 0 ≤ l.cash) (collateral pnl fee : K) :
    0 ≤ (l.settle collateral pnl fee).cash :=
  add_nonneg h (le_max_right _ _)

end Ledger

end FlashEdge
