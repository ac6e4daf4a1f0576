import FlashEdge.Theory.Machine
import FlashEdge.Theory.OrderedMap
import Mathlib.Algebra.Order.Floor.Defs
import Mathlib.Data.Rat.Floor

/-!
# Liquidity positions and their profit (`tools/earn-tools.ts`, `earn/earn-journal.ts`)

A deposit mints FLP, a withdrawal burns a part of it, and the journal keeps the dollars of
both; `earn_pnl` compares the value of the wallet's tokens with the journal. A withdrawal is
recorded after the fact, from a balance that the wallet manager gives.

`earn` is the machine of the operations that succeed, at constant prices and without fees.
Staked LP sits in a stake account, which is not a token account of the wallet; what the
wallet lists of the sFLP mint after a stake or an unstake is part of the action.
-/

namespace FlashEdge

namespace Earn

/-! ## The journal -/

inductive EarnAction where
  | deposit
  | withdraw
deriving DecidableEq, Repr

structure EarnJournalEntry where
  pool : String
  action : EarnAction
  amountUsd : ℚ
deriving DecidableEq, Repr

def MAX_ENTRIES : ℕ := 5000

/-- The oldest entries make room. -/
def recordEarnAction (entries : List EarnJournalEntry) (entry : EarnJournalEntry) :
    List EarnJournalEntry :=
  let entries := entries ++ [entry]
  entries.drop (entries.length - MAX_ENTRIES)

/-! ## Tokens and prices -/

inductive LpType where
  | FLP
  | sFLP
deriving DecidableEq, Repr

/-- What `getPoolMetrics` says of the prices of a pool. -/
structure PoolPrices where
  flpPrice : String → ℚ
  sflpPrice : String → ℚ
  flpPrice_pos : ∀ pool, 0 < flpPrice pool
  sflpPrice_pos : ∀ pool, 0 < sflpPrice pool

def PoolPrices.price (m : PoolPrices) : String × LpType → ℚ
  | (pool, .FLP) => m.flpPrice pool
  | (pool, .sFLP) => m.sflpPrice pool

/-- The LP tokens of the wallet, by pool and type as `resolveTokenMint` gives them. -/
abbrev Tokens := OrderedMap (String × LpType) ℚ

/-- The amount of one token; one that is not listed is zero. -/
def amount (tokens : Tokens) (k : String × LpType) : ℚ := (tokens.get? k).getD 0

/-! ## The profit -/

structure EarnPosition where
  pool : String
  type : LpType
  tokens : ℚ
  value : ℚ
  price : ℚ
deriving DecidableEq, Repr

structure EarnPnl where
  totalValue : ℚ
  totalDeposited : ℚ
  totalWithdrawn : ℚ
  pnl : ℚ
  positions : List EarnPosition
deriving DecidableEq, Repr

/-- A token in the loop of `earn_pnl`: it is counted, or ignored. -/
def earnPosition (m : PoolPrices) (token : (String × LpType) × ℚ) : Option EarnPosition :=
  let ((pool, type), amount) := token
  if amount < 1 / 1000 then none
  else
    let price := m.price (pool, type)
    some { pool, type, tokens := amount, value := amount * price, price }

/-- An entry is added to the totals of its pool: what was deposited, what was withdrawn. -/
def addEntry (totals : OrderedMap String (ℚ × ℚ)) (entry : EarnJournalEntry) :
    OrderedMap String (ℚ × ℚ) :=
  let t := (totals.get? entry.pool).getD (0, 0)
  totals.set entry.pool (match entry.action with
    | .deposit => (t.1 + entry.amountUsd, t.2)
    | .withdraw => (t.1, t.2 + entry.amountUsd))

def poolTotals (journal : List EarnJournalEntry) : OrderedMap String (ℚ × ℚ) :=
  journal.foldl addEntry .empty

def earnPnl (m : PoolPrices) (tokens : Tokens) (journal : List EarnJournalEntry) : EarnPnl :=
  let positions := tokens.entries.filterMap (earnPosition m)
  let totalValue := (positions.map EarnPosition.value).sum
  let totalDeposited := (poolTotals journal).sum fun _ t => t.1
  let totalWithdrawn := (poolTotals journal).sum fun _ t => t.2
  { totalValue, totalDeposited, totalWithdrawn
    pnl := totalValue + totalWithdrawn - totalDeposited
    positions }

/-! ## Operations -/

/-- `removeLiquidity` of the client: which token it burns, and how much of it. Without FLP it
looks for LP that an unstake has left; `new BN(percent)` is a whole number. -/
def removeLiquidity (tokens : Tokens) (pool : String) (percent : ℚ) : Option (LpType × ℚ) :=
  let flpBalance := amount tokens (pool, .FLP)
  let type : LpType := if flpBalance = 0 then .sFLP else .FLP
  let balance := amount tokens (pool, type)
  let withdrawAmount := balance * ⌊percent⌋ / 100
  if withdrawAmount = 0 then none else some (type, withdrawAmount)

/-- The withdrawn dollars, from the FLP balance that the wallet manager gives. -/
def estimatedWithdraw (flpPrice percent balance : ℚ) : ℚ :=
  let preWithdrawBalance := if 100 ≤ percent then balance else balance / (1 - percent / 100)
  let positionValue := preWithdrawBalance * flpPrice
  if 0 < positionValue then positionValue * (percent / 100) else 0

/-- Which balances a withdrawal reads: those after it, those before it (a cached or a late
answer), or none. -/
inductive BalanceRead where
  | after
  | before
  | failed
deriving DecidableEq, Repr

inductive EarnOperation where
  | deposit (pool : String) (amount : ℚ)
  | withdraw (pool : String) (percent : ℚ) (read : BalanceRead)
  | stake (pool : String) (amount listed : ℚ)
  | unstake (pool : String) (percent listed : ℚ)
deriving DecidableEq, Repr

/-- A withdrawal: the value that was taken out, and what was recorded of it. -/
inductive EarnEvent where
  | withdrawn (taken recorded : ℚ)
deriving DecidableEq, Repr

end Earn

open Earn

structure Earn where
  tokens : Tokens := .empty
  journal : List EarnJournalEntry := []

namespace Earn

/-- `earn_add_liquidity`, once confirmed. -/
def earnAddLiquidity (m : PoolPrices) (s : Earn) (pool : String) (amountUsd : ℚ) : Earn where
  tokens := s.tokens.set (pool, .FLP) (amount s.tokens (pool, .FLP) + amountUsd / m.flpPrice pool)
  journal := recordEarnAction s.journal { pool, action := .deposit, amountUsd }

/-- `earn_remove_liquidity`. -/
def earnRemoveLiquidity (m : PoolPrices) (s : Earn) (pool : String) (percent : ℚ)
    (read : BalanceRead) : Option (Earn × List EarnEvent) :=
  match removeLiquidity s.tokens pool percent with
  | none => none
  | some (type, withdrawAmount) =>
    let tokens := s.tokens.set (pool, type) (amount s.tokens (pool, type) - withdrawAmount)
    let recorded := match read with
      | .after => estimatedWithdraw (m.flpPrice pool) percent (amount tokens (pool, .FLP))
      | .before => estimatedWithdraw (m.flpPrice pool) percent (amount s.tokens (pool, .FLP))
      | .failed => 0
    let journal :=
      if 0 < recorded then
        recordEarnAction s.journal { pool, action := .withdraw, amountUsd := recorded }
      else s.journal
    some ({ tokens, journal }, [.withdrawn (withdrawAmount * m.price (pool, type)) recorded])

/-- `earn_stake` and `earn_unstake` record nothing. -/
def list (s : Earn) (pool : String) (listed : ℚ) : Earn :=
  { s with tokens := s.tokens.set (pool, .sFLP) listed }

def step (m : PoolPrices) (s : Earn) : EarnOperation → Option (Earn × List EarnEvent)
  | .deposit pool amountUsd =>
    if 0 < amountUsd then some (s.earnAddLiquidity m pool amountUsd, []) else none
  | .withdraw pool percent read =>
    if 1 ≤ percent ∧ percent ≤ 100 then s.earnRemoveLiquidity m pool percent read else none
  | .stake pool amountUsd listed =>
    if 0 < amountUsd ∧ 0 ≤ listed then some (s.list pool listed, []) else none
  | .unstake pool percent listed =>
    if 1 ≤ percent ∧ percent ≤ 100 ∧ 0 ≤ listed then some (s.list pool listed, []) else none

end Earn

/-- The earn operations of a wallet that starts without LP tokens and without a journal. -/
def earn (m : PoolPrices) : Machine Earn EarnOperation EarnEvent where
  init := {}
  step := Earn.step m

end FlashEdge
