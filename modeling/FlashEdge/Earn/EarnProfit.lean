import FlashEdge.Earn.EarnTools
import Mathlib.Tactic.Linarith
import Mathlib.Tactic.LinearCombination
import Mathlib.Tactic.NormNum
import Mathlib.Tactic.Ring

/-!
# At constant prices the profit stays zero

What is held, plus what was withdrawn, minus what was deposited should be zero after every
operation, and every withdrawal should be recorded with the value that was taken out
(`InBalance`). A withdrawal of everything is recorded only if the balance was read before
it, and any other one only if it was read after it; a percentage that is not whole is
recorded with its fraction, which is not withdrawn. `inBalance_iff` is the exact condition.
-/

namespace FlashEdge

namespace Earn

/-! ## The property -/

/-- The value of the tokens that `earn_pnl` ignores. -/
def dust (m : PoolPrices) (tokens : Tokens) : ℚ :=
  tokens.sum fun k amount => if amount < 1 / 1000 then amount * m.price k else 0

/-- The profit is zero up to ignored dust, and every withdrawal was recorded exactly. -/
structure InBalance (m : PoolPrices) (s : Earn) (h : List EarnEvent) : Prop where
  profit : (earnPnl m s.tokens s.journal).pnl + dust m s.tokens = 0
  recorded : ∀ taken recorded, .withdrawn taken recorded ∈ h → recorded = taken

/-! ## The condition -/

/-- The balances are read after a withdrawal of a whole percentage below 100, or before one
of 100; the journal has room; and the wallet lists no staked LP. -/
def Recorded (s : Earn) (_ : List EarnEvent) : EarnOperation → Prop
  | .deposit _ _ => s.journal.length < MAX_ENTRIES
  | .withdraw _ percent read => s.journal.length < MAX_ENTRIES ∧
      (read = .after ∧ percent < 100 ∧ (⌊percent⌋ : ℚ) = percent ∨
        read = .before ∧ percent = 100)
  | .stake pool _ listed => listed = amount s.tokens (pool, .sFLP)
  | .unstake pool _ listed => listed = amount s.tokens (pool, .sFLP)

/-! ## The profit, from the tokens and the journal -/

/-- The value of all tokens. -/
def value (m : PoolPrices) (tokens : Tokens) : ℚ :=
  tokens.sum fun k amount => amount * m.price k

/-- What an entry adds to the deposits. -/
def EarnJournalEntry.signed (entry : EarnJournalEntry) : ℚ :=
  match entry.action with
  | .deposit => entry.amountUsd
  | .withdraw => -entry.amountUsd

/-- Deposits less withdrawals. -/
def net (journal : List EarnJournalEntry) : ℚ := (journal.map EarnJournalEntry.signed).sum

variable {m : PoolPrices} {s s' : Earn} {h es : List EarnEvent}

theorem earnPosition_eq (m : PoolPrices) (k : String × LpType) (amount : ℚ) :
    earnPosition m (k, amount) = if amount < 1 / 1000 then none
      else some ⟨k.1, k.2, amount, amount * m.price k, m.price k⟩ := rfl

/-- What is counted and what is ignored is everything. -/
theorem totalValue_add_dust (m : PoolPrices) (tokens : Tokens) :
    ((tokens.entries.filterMap (earnPosition m)).map EarnPosition.value).sum + dust m tokens =
      value m tokens := by
  unfold dust value OrderedMap.sum
  induction tokens.entries with
  | nil => simp
  | cons e entries ih =>
    obtain ⟨k, amount⟩ := e
    rw [List.filterMap_cons, earnPosition_eq, List.map_cons, List.map_cons, List.sum_cons,
      List.sum_cons, ← ih]
    by_cases hdust : amount < 1 / 1000
    · simp only [if_pos hdust]
      ring
    · simp only [if_neg hdust, List.map_cons, List.sum_cons]
      ring

/-- Over the totals, deposits less withdrawals. -/
def netTotals (totals : OrderedMap String (ℚ × ℚ)) : ℚ := totals.sum fun _ t => t.1 - t.2

theorem netTotals_addEntry (totals : OrderedMap String (ℚ × ℚ)) (entry : EarnJournalEntry) :
    netTotals (addEntry totals entry) = netTotals totals + entry.signed := by
  unfold netTotals addEntry EarnJournalEntry.signed
  rw [OrderedMap.sum_set]
  cases totals.get? entry.pool with
  | none =>
    cases entry.action with
    | deposit => simp
    | withdraw => simp
  | some t =>
    cases entry.action with
    | deposit => simp only [Option.map_some, Option.getD_some]; ring
    | withdraw => simp only [Option.map_some, Option.getD_some]; ring

/-- The totals by pool add up to the journal. -/
theorem netTotals_poolTotals (journal : List EarnJournalEntry) :
    netTotals (poolTotals journal) = net journal := by
  -- whatever was added before is kept
  have hfold : ∀ totals, netTotals (journal.foldl addEntry totals) =
      netTotals totals + net journal := by
    induction journal with
    | nil => intro totals; simp [net]
    | cons entry journal ih =>
      intro totals
      rw [List.foldl_cons, ih, netTotals_addEntry]
      unfold net
      rw [List.map_cons, List.sum_cons, add_assoc]
  have hempty : netTotals .empty = 0 := rfl
  rw [poolTotals, hfold, hempty, zero_add]

theorem netTotals_eq (totals : OrderedMap String (ℚ × ℚ)) :
    netTotals totals = (totals.sum fun _ t => t.1) - totals.sum fun _ t => t.2 := by
  unfold netTotals OrderedMap.sum
  induction totals.entries with
  | nil => simp
  | cons e entries ih =>
    simp only [List.map_cons, List.sum_cons, ih]
    ring

/-- The profit is what is held, less what the journal says was put in. -/
theorem pnl_add_dust (m : PoolPrices) (tokens : Tokens) (journal : List EarnJournalEntry) :
    (earnPnl m tokens journal).pnl + dust m tokens = value m tokens - net journal := by
  rw [← totalValue_add_dust, ← netTotals_poolTotals, netTotals_eq]
  unfold earnPnl
  dsimp only
  ring

/-! ## What changes the two -/

theorem value_set (m : PoolPrices) (tokens : Tokens) (k : String × LpType) (v : ℚ) :
    value m (tokens.set k v) = value m tokens + (v - amount tokens k) * m.price k := by
  unfold value amount
  rw [OrderedMap.sum_set]
  cases tokens.get? k with
  | none => simp
  | some w => simp only [Option.map_some, Option.getD_some]; ring

theorem amount_set (tokens : Tokens) (k k' : String × LpType) (v : ℚ) :
    amount (tokens.set k v) k' = if k' = k then v else amount tokens k' := by
  unfold amount
  rw [OrderedMap.get?_set]
  by_cases hk : k' = k
  · simp [hk]
  · simp [hk]

theorem net_append (journal : List EarnJournalEntry) (entry : EarnJournalEntry) :
    net (journal ++ [entry]) = net journal + entry.signed := by
  unfold net
  rw [List.map_append, List.sum_append]
  simp

/-- With room in the journal an entry is added to it. -/
theorem recordEarnAction_of_lt {journal : List EarnJournalEntry} (entry : EarnJournalEntry)
    (hroom : journal.length < MAX_ENTRIES) :
    recordEarnAction journal entry = journal ++ [entry] := by
  unfold recordEarnAction
  have hzero : (journal ++ [entry]).length - MAX_ENTRIES = 0 := by
    rw [List.length_append, List.length_singleton]
    omega
  dsimp only
  rw [hzero, List.drop_zero]

/-- A full journal loses its first entry. -/
theorem recordEarnAction_of_full {journal : List EarnJournalEntry} (entry : EarnJournalEntry)
    (hfull : journal.length = MAX_ENTRIES) :
    ∃ first rest, journal = first :: rest ∧ recordEarnAction journal entry = rest ++ [entry] := by
  cases journal with
  | nil => exact absurd hfull (by decide)
  | cons first rest =>
    refine ⟨first, rest, rfl, ?_⟩
    unfold recordEarnAction
    have hone : (first :: rest ++ [entry]).length - MAX_ENTRIES = 1 := by
      rw [List.length_append, hfull, List.length_singleton]
      omega
    dsimp only
    rw [hone]
    rfl

/-! ## What a withdrawal records -/

/-- The whole part of a percentage. -/
theorem floor_percent {percent : ℚ} (h1 : 1 ≤ percent) :
    (1 : ℚ) ≤ ⌊percent⌋ ∧ (⌊percent⌋ : ℚ) ≤ percent := by
  constructor
  · exact_mod_cast Int.le_floor.mpr (by exact_mod_cast h1)
  · exact Int.floor_le percent

/-- Below 100 percent, the balance before the withdrawal is found from `balance`, with the
fraction of the percentage. -/
theorem estimatedWithdraw_of_lt {flpPrice percent balance : ℚ} (hprice : 0 < flpPrice)
    (hbalance : 0 < balance) (hlt : percent < 100) :
    estimatedWithdraw flpPrice percent balance =
      balance * flpPrice * (percent / 100) / (1 - percent / 100) := by
  have hd : 0 < 1 - percent / 100 := by linarith
  have hvalue : 0 < balance / (1 - percent / 100) * flpPrice :=
    mul_pos (div_pos hbalance hd) hprice
  unfold estimatedWithdraw
  rw [if_neg (not_le.mpr hlt)]
  dsimp only
  rw [if_pos hvalue]
  ring

/-- From the balance after it, a withdrawal of a whole part is recorded exactly. -/
theorem estimatedWithdraw_after {flpPrice percent balance : ℚ} (hprice : 0 < flpPrice)
    (hbalance : 0 < balance) (h1 : 1 ≤ percent) (h100 : percent ≤ 100) :
    estimatedWithdraw flpPrice percent (balance - balance * ⌊percent⌋ / 100) =
        balance * ⌊percent⌋ / 100 * flpPrice ↔
      percent < 100 ∧ (⌊percent⌋ : ℚ) = percent := by
  have hne : balance * flpPrice ≠ 0 := (mul_pos hbalance hprice).ne'
  rcases lt_or_eq_of_le h100 with hlt | rfl
  · obtain ⟨-, hn⟩ := floor_percent h1
    have hd : 1 - percent / 100 ≠ 0 := by linarith
    have hrest : 0 < balance - balance * ⌊percent⌋ / 100 := by
      have hpart : balance * ⌊percent⌋ < balance * 100 := by
        apply mul_lt_mul_of_pos_left _ hbalance
        linarith
      linarith
    rw [estimatedWithdraw_of_lt hprice hrest hlt, div_eq_iff hd]
    constructor
    · intro heq
      have hzero : balance * flpPrice * (percent - ⌊percent⌋) = 0 := by
        linear_combination 100 * heq
      rcases mul_eq_zero.mp hzero with h | h
      · exact absurd h hne
      · exact ⟨hlt, by linarith⟩
    · rintro ⟨-, hwhole⟩
      rw [hwhole]
      ring
  · -- nothing is left to record
    have hfloor : ⌊(100 : ℚ)⌋ = 100 := by norm_num
    rw [hfloor]
    constructor
    · intro heq
      have hzero : estimatedWithdraw flpPrice 100 (balance - balance * (100 : ℤ) / 100) = 0 := by
        simp [estimatedWithdraw]
      rw [hzero] at heq
      have hfull : balance * flpPrice = 0 := by
        push_cast at heq
        linarith
      exact absurd hfull hne
    · rintro ⟨hlt, -⟩
      exact absurd hlt (lt_irrefl _)

/-- From the balance before it, only a withdrawal of everything is. -/
theorem estimatedWithdraw_before {flpPrice percent balance : ℚ} (hprice : 0 < flpPrice)
    (hbalance : 0 < balance) (h1 : 1 ≤ percent) (h100 : percent ≤ 100) :
    estimatedWithdraw flpPrice percent balance = balance * ⌊percent⌋ / 100 * flpPrice ↔
      percent = 100 := by
  have hpos : 0 < balance * flpPrice := mul_pos hbalance hprice
  rcases lt_or_eq_of_le h100 with hlt | rfl
  · obtain ⟨hn1, hn⟩ := floor_percent h1
    have hd : 1 - percent / 100 ≠ 0 := by linarith
    rw [estimatedWithdraw_of_lt hprice hbalance hlt, div_eq_iff hd]
    constructor
    · intro heq
      have hzero : balance * flpPrice * (percent - ⌊percent⌋ * (1 - percent / 100)) = 0 := by
        linear_combination 100 * heq
      rcases mul_eq_zero.mp hzero with h | h
      · exact absurd h hpos.ne'
      · -- the balance is taken for one that has been reduced, so too much is recorded
        have hless : 0 < (⌊percent⌋ : ℚ) * (percent / 100) := by
          apply mul_pos
          · linarith
          · linarith
        linarith
    · rintro rfl
      exact absurd hlt (lt_irrefl _)
  · have hfloor : ⌊(100 : ℚ)⌋ = 100 := by norm_num
    have hall : estimatedWithdraw flpPrice 100 balance = balance * flpPrice := by
      simp [estimatedWithdraw, hpos]
    rw [hfloor, hall]
    constructor
    · exact fun _ => rfl
    · intro _
      push_cast
      ring

/-- What is recorded of a withdrawal of FLP. -/
def recordedOf (m : PoolPrices) (pool : String) (percent balance : ℚ) : BalanceRead → ℚ
  | .after =>
    estimatedWithdraw (m.flpPrice pool) percent (balance - balance * ⌊percent⌋ / 100)
  | .before => estimatedWithdraw (m.flpPrice pool) percent balance
  | .failed => 0

/-- Which withdrawals are recorded exactly. -/
theorem recordedOf_exact (m : PoolPrices) (pool : String) {percent balance : ℚ}
    (hbalance : 0 < balance) (h1 : 1 ≤ percent) (h100 : percent ≤ 100) (read : BalanceRead) :
    recordedOf m pool percent balance read =
        balance * ⌊percent⌋ / 100 * m.flpPrice pool ↔
      read = .after ∧ percent < 100 ∧ (⌊percent⌋ : ℚ) = percent ∨
        read = .before ∧ percent = 100 := by
  have hprice := m.flpPrice_pos pool
  cases read with
  | after =>
    rw [recordedOf, estimatedWithdraw_after hprice hbalance h1 h100]
    simp
  | before =>
    rw [recordedOf, estimatedWithdraw_before hprice hbalance h1 h100]
    simp
  | failed =>
    have htaken : 0 < balance * ⌊percent⌋ / 100 * m.flpPrice pool := by
      have hn := (floor_percent h1).1
      have : 0 < balance * (⌊percent⌋ : ℚ) := mul_pos hbalance (by linarith)
      exact mul_pos (by linarith) hprice
    constructor
    · intro hzero
      exact absurd hzero.symm htaken.ne'
    · simp

/-! ## The invariant -/

structure EarnInv (m : PoolPrices) (s : Earn) (h : List EarnEvent) : Prop where
  flp : ∀ pool, 0 ≤ amount s.tokens (pool, .FLP)
  sflp : ∀ pool, amount s.tokens (pool, .sFLP) = 0
  positive : ∀ entry ∈ s.journal, 0 < entry.amountUsd
  short : s.journal.length ≤ MAX_ENTRIES
  balanced : value m s.tokens = net s.journal
  recorded : ∀ taken recorded, .withdrawn taken recorded ∈ h → recorded = taken

theorem EarnInv.init (m : PoolPrices) : EarnInv m (earn m).init [] where
  flp := fun _ => le_rfl
  sflp := fun _ => rfl
  positive := fun _ hmem => by cases hmem
  short := Nat.zero_le _
  balanced := rfl
  recorded := fun _ _ hmem => by cases hmem

theorem EarnInv.inBalance (hI : EarnInv m s h) : InBalance m s h where
  profit := by rw [pnl_add_dust, hI.balanced, sub_self]
  recorded := hI.recorded

/-- The profit is zero only if tokens and journal agree. -/
theorem InBalance.balanced (hb : InBalance m s h) : value m s.tokens = net s.journal := by
  have hprofit := hb.profit
  rw [pnl_add_dust] at hprofit
  linarith

/-- An entry for which there is room. -/
theorem EarnInv.record (hI : EarnInv m s h) (entry : EarnJournalEntry)
    (hroom : s.journal.length < MAX_ENTRIES) (hpos : 0 < entry.amountUsd) :
    (∀ e ∈ recordEarnAction s.journal entry, 0 < e.amountUsd) ∧
      (recordEarnAction s.journal entry).length ≤ MAX_ENTRIES ∧
      net (recordEarnAction s.journal entry) = net s.journal + entry.signed := by
  rw [recordEarnAction_of_lt entry hroom]
  refine ⟨?_, ?_, net_append _ _⟩
  · intro e he
    rcases List.mem_append.mp he with hold | hnew
    · exact hI.positive e hold
    · obtain rfl := List.mem_singleton.mp hnew
      exact hpos
  · rw [List.length_append, List.length_singleton]
    omega

/-- An entry for which there is none takes the place of another. -/
theorem EarnInv.net_full (hI : EarnInv m s h) (entry : EarnJournalEntry)
    (hfull : ¬ s.journal.length < MAX_ENTRIES) :
    net (recordEarnAction s.journal entry) ≠ net s.journal + entry.signed := by
  obtain ⟨first, rest, hjournal, hrecord⟩ :=
    recordEarnAction_of_full entry (le_antisymm hI.short (not_lt.mp hfull))
  have hfirst := hI.positive first (by rw [hjournal]; exact List.mem_cons_self)
  have hsigned : first.signed ≠ 0 := by
    unfold EarnJournalEntry.signed
    cases first.action with
    | deposit => exact hfirst.ne'
    | withdraw => exact neg_ne_zero.mpr hfirst.ne'
  rw [hrecord, net_append, hjournal]
  unfold net
  rw [List.map_cons, List.sum_cons]
  intro heq
  apply hsigned
  linarith

/-! ## Operations -/

theorem journal_deposit (m : PoolPrices) (s : Earn) (pool : String) (amountUsd : ℚ) :
    (s.earnAddLiquidity m pool amountUsd).journal =
      recordEarnAction s.journal { pool, action := .deposit, amountUsd } := by
  rw [earnAddLiquidity]

theorem amount_deposit (m : PoolPrices) (s : Earn) (pool : String) (amountUsd : ℚ)
    (k : String × LpType) :
    amount (s.earnAddLiquidity m pool amountUsd).tokens k =
      if k = (pool, .FLP) then amount s.tokens (pool, .FLP) + amountUsd / m.flpPrice pool
      else amount s.tokens k :=
  amount_set s.tokens (pool, .FLP) k _

theorem value_deposit (m : PoolPrices) (s : Earn) (pool : String) (amountUsd : ℚ) :
    value m (s.earnAddLiquidity m pool amountUsd).tokens = value m s.tokens + amountUsd := by
  have hprice := (m.flpPrice_pos pool).ne'
  unfold earnAddLiquidity
  rw [value_set, add_sub_cancel_left]
  show _ + amountUsd / m.flpPrice pool * m.flpPrice pool = _
  rw [div_mul_cancel₀ amountUsd hprice]

theorem EarnInv.deposit (hI : EarnInv m s h) {pool : String} {amountUsd : ℚ}
    (hpos : 0 < amountUsd) (hroom : s.journal.length < MAX_ENTRIES) :
    EarnInv m (s.earnAddLiquidity m pool amountUsd) (h ++ []) := by
  obtain ⟨hpositive, hshort, hnet⟩ :=
    hI.record { pool, action := .deposit, amountUsd } hroom hpos
  rw [← journal_deposit m] at hpositive hshort hnet
  rw [List.append_nil]
  constructor
  case positive => exact hpositive
  case short => exact hshort
  case recorded => exact hI.recorded
  case flp =>
    intro pool'
    rw [amount_deposit]
    split
    · exact add_nonneg (hI.flp pool) (div_nonneg hpos.le (m.flpPrice_pos pool).le)
    · exact hI.flp pool'
  case sflp =>
    intro pool'
    rw [amount_deposit, if_neg (by simp)]
    exact hI.sflp pool'
  case balanced =>
    rw [value_deposit, hI.balanced, hnet]
    rfl

theorem not_inBalance_of_deposit (hI : EarnInv m s h) {pool : String} {amountUsd : ℚ}
    (hfull : ¬ s.journal.length < MAX_ENTRIES) :
    ¬ InBalance m (s.earnAddLiquidity m pool amountUsd) h := by
  intro hb
  have hbalanced := hb.balanced
  rw [value_deposit, hI.balanced, journal_deposit] at hbalanced
  exact hI.net_full { pool, action := .deposit, amountUsd } hfull hbalanced.symm

/-- What the wallet lists of staked LP. -/
theorem value_list (m : PoolPrices) (s : Earn) (pool : String) (listed : ℚ) :
    value m (s.list pool listed).tokens =
      value m s.tokens + (listed - amount s.tokens (pool, .sFLP)) * m.sflpPrice pool :=
  value_set m s.tokens (pool, .sFLP) listed

theorem EarnInv.list (hI : EarnInv m s h) {pool : String} {listed : ℚ}
    (hsame : listed = amount s.tokens (pool, .sFLP)) :
    EarnInv m (s.list pool listed) (h ++ []) := by
  rw [List.append_nil]
  refine ⟨?_, ?_, hI.positive, hI.short, ?_, hI.recorded⟩
  · intro pool'
    show 0 ≤ amount (s.tokens.set _ _) _
    rw [amount_set, if_neg (by simp)]
    exact hI.flp pool'
  · intro pool'
    show amount (s.tokens.set _ _) _ = 0
    rw [amount_set]
    split
    · rw [hsame]
      exact hI.sflp pool
    · exact hI.sflp pool'
  · rw [value_list, hsame, sub_self, zero_mul, add_zero]
    exact hI.balanced

theorem not_inBalance_of_list (hI : EarnInv m s h) {pool : String} {listed : ℚ}
    (hother : ¬ listed = amount s.tokens (pool, .sFLP)) : ¬ InBalance m (s.list pool listed) h := by
  intro hb
  have hbalanced : value m (s.list pool listed).tokens = net s.journal := hb.balanced
  rw [value_list, hI.balanced] at hbalanced
  have hzero : (listed - amount s.tokens (pool, .sFLP)) * m.sflpPrice pool = 0 := by linarith
  rcases mul_eq_zero.mp hzero with h | h
  · exact hother (sub_eq_zero.mp h)
  · exact (m.sflpPrice_pos pool).ne' h

/-! ## Withdrawals -/

/-- Without staked LP it is FLP that is burned. -/
theorem removeLiquidity_cases {tokens : Tokens} {pool : String} {percent withdrawAmount : ℚ}
    {type : LpType} (hsflp : amount tokens (pool, .sFLP) = 0)
    (hs : removeLiquidity tokens pool percent = some (type, withdrawAmount)) :
    type = .FLP ∧ amount tokens (pool, .FLP) ≠ 0 ∧
      withdrawAmount = amount tokens (pool, .FLP) * ⌊percent⌋ / 100 := by
  unfold removeLiquidity at hs
  by_cases hzero : amount tokens (pool, .FLP) = 0
  · dsimp only at hs
    rw [if_pos hzero, hsflp, zero_mul, zero_div, if_pos rfl] at hs
    cases hs
  · dsimp only at hs
    rw [if_neg hzero] at hs
    split at hs
    · cases hs
    · obtain ⟨rfl, rfl⟩ := Prod.mk.inj (Option.some.inj hs)
      exact ⟨rfl, hzero, rfl⟩

/-- What a withdrawal does. -/
structure Withdrew (m : PoolPrices) (s : Earn) (pool : String) (percent : ℚ) (read : BalanceRead)
    (s' : Earn) (es : List EarnEvent) (balance withdrawn recorded : ℚ) : Prop where
  balance_eq : balance = amount s.tokens (pool, .FLP)
  balance_pos : 0 < balance
  withdrawn_eq : withdrawn = balance * ⌊percent⌋ / 100
  recorded_eq : recorded = recordedOf m pool percent balance read
  tokens : s'.tokens = s.tokens.set (pool, .FLP) (balance - withdrawn)
  journal : s'.journal = if 0 < recorded then
    recordEarnAction s.journal { pool, action := .withdraw, amountUsd := recorded } else s.journal
  events : es = [.withdrawn (withdrawn * m.flpPrice pool) recorded]

theorem EarnInv.withdrew (hI : EarnInv m s h) {pool : String} {percent : ℚ} {read : BalanceRead}
    (hs : s.earnRemoveLiquidity m pool percent read = some (s', es)) :
    ∃ balance withdrawn recorded,
      Withdrew m s pool percent read s' es balance withdrawn recorded := by
  unfold earnRemoveLiquidity at hs
  split at hs
  · cases hs
  · next type withdrawAmount hremove =>
    obtain ⟨rfl, hne, hwithdrawn⟩ := removeLiquidity_cases (hI.sflp pool) hremove
    have hafter : amount (s.tokens.set (pool, .FLP)
        (amount s.tokens (pool, .FLP) - withdrawAmount)) (pool, .FLP) =
          amount s.tokens (pool, .FLP) - amount s.tokens (pool, .FLP) * ⌊percent⌋ / 100 := by
      rw [amount_set, if_pos rfl, hwithdrawn]
    have hpos := lt_of_le_of_ne (hI.flp pool) hne.symm
    dsimp only at hs
    rw [hafter] at hs
    refine ⟨_, withdrawAmount, recordedOf m pool percent _ read, rfl, hpos, hwithdrawn, rfl,
      ?_, ?_, ?_⟩
    all_goals
      cases read with
      | after | before | failed =>
        obtain ⟨rfl, rfl⟩ := Prod.mk.inj (Option.some.inj hs)
        rfl

section Withdrew

variable {pool : String} {percent : ℚ} {read : BalanceRead} {balance withdrawn recorded : ℚ}

theorem Withdrew.taken_pos (hw : Withdrew m s pool percent read s' es balance withdrawn recorded)
    (h1 : 1 ≤ percent) : 0 < withdrawn * m.flpPrice pool := by
  have hn := (floor_percent h1).1
  have hpart : 0 < balance * (⌊percent⌋ : ℚ) := mul_pos hw.balance_pos (by linarith)
  apply mul_pos _ (m.flpPrice_pos pool)
  rw [hw.withdrawn_eq]
  linarith

theorem Withdrew.withdrawn_le (hw : Withdrew m s pool percent read s' es balance withdrawn recorded)
    (h1 : 1 ≤ percent) (h100 : percent ≤ 100) : withdrawn ≤ balance := by
  have hn := (floor_percent h1).2
  have hpart : balance * (⌊percent⌋ : ℚ) ≤ balance * 100 := by
    apply mul_le_mul_of_nonneg_left _ hw.balance_pos.le
    linarith
  rw [hw.withdrawn_eq]
  linarith

theorem Withdrew.amount_eq (hw : Withdrew m s pool percent read s' es balance withdrawn recorded)
    (k : String × LpType) : amount s'.tokens k =
      if k = (pool, .FLP) then balance - withdrawn else amount s.tokens k := by
  rw [hw.tokens, amount_set]

theorem Withdrew.value_eq (hw : Withdrew m s pool percent read s' es balance withdrawn recorded) :
    value m s'.tokens = value m s.tokens - withdrawn * m.flpPrice pool := by
  rw [hw.tokens, value_set, ← hw.balance_eq]
  show value m s.tokens + (balance - withdrawn - balance) * m.flpPrice pool = _
  ring

/-- A withdrawal that is recorded exactly, with room in the journal. -/
theorem EarnInv.withdraw (hI : EarnInv m s h)
    (hw : Withdrew m s pool percent read s' es balance withdrawn recorded) (h1 : 1 ≤ percent)
    (h100 : percent ≤ 100) (hroom : s.journal.length < MAX_ENTRIES)
    (hexact : recorded = withdrawn * m.flpPrice pool) : EarnInv m s' (h ++ es) := by
  have hpos : 0 < recorded := by
    rw [hexact]
    exact hw.taken_pos h1
  have hjournal := hw.journal
  rw [if_pos hpos] at hjournal
  obtain ⟨hpositive, hshort, hnet⟩ :=
    hI.record { pool, action := .withdraw, amountUsd := recorded } hroom hpos
  rw [← hjournal] at hpositive hshort hnet
  constructor
  case positive => exact hpositive
  case short => exact hshort
  case flp =>
    intro pool'
    rw [hw.amount_eq]
    split
    · exact sub_nonneg.mpr (hw.withdrawn_le h1 h100)
    · exact hI.flp pool'
  case sflp =>
    intro pool'
    rw [hw.amount_eq, if_neg (by simp)]
    exact hI.sflp pool'
  case balanced =>
    rw [hw.value_eq, hI.balanced, hnet, ← hexact]
    exact sub_eq_add_neg _ _
  case recorded =>
    intro taken recorded' hmem
    rw [hw.events] at hmem
    rcases List.mem_append.mp hmem with hold | hnew
    · exact hI.recorded taken recorded' hold
    · obtain ⟨rfl, rfl⟩ := EarnEvent.withdrawn.inj (List.mem_singleton.mp hnew)
      exact hexact

theorem not_inBalance_of_inexact
    (hw : Withdrew m s pool percent read s' es balance withdrawn recorded)
    (hinexact : recorded ≠ withdrawn * m.flpPrice pool) : ¬ InBalance m s' (h ++ es) := by
  intro hb
  apply hinexact
  apply hb.recorded
  rw [hw.events]
  exact List.mem_append_right h List.mem_cons_self

theorem not_inBalance_of_withdraw (hI : EarnInv m s h)
    (hw : Withdrew m s pool percent read s' es balance withdrawn recorded) (h1 : 1 ≤ percent)
    (hfull : ¬ s.journal.length < MAX_ENTRIES)
    (hexact : recorded = withdrawn * m.flpPrice pool) : ¬ InBalance m s' (h ++ es) := by
  intro hb
  have hbalanced := hb.balanced
  have hpos : 0 < recorded := by
    rw [hexact]
    exact hw.taken_pos h1
  rw [hw.value_eq, hI.balanced, ← hexact, hw.journal, if_pos hpos] at hbalanced
  apply hI.net_full { pool, action := .withdraw, amountUsd := recorded } hfull
  rw [← hbalanced]
  exact sub_eq_add_neg _ _

end Withdrew

/-! ## Every operation -/

theorem EarnInv.step {op : EarnOperation} (hI : EarnInv m s h)
    (hs : s.step m op = some (s', es)) :
    (Recorded s h op ∧ EarnInv m s' (h ++ es)) ∨
      (¬ Recorded s h op ∧ ¬ InBalance m s' (h ++ es)) := by
  unfold Earn.step at hs
  cases op with
  | deposit pool amountUsd =>
    dsimp only at hs
    split at hs
    · next hpos =>
      obtain ⟨rfl, rfl⟩ := Prod.mk.inj (Option.some.inj hs)
      by_cases hroom : s.journal.length < MAX_ENTRIES
      · exact .inl ⟨hroom, hI.deposit hpos hroom⟩
      · rw [List.append_nil]
        exact .inr ⟨hroom, not_inBalance_of_deposit hI hroom⟩
    · cases hs
  | withdraw pool percent read =>
    dsimp only at hs
    split at hs
    · next hpercent =>
      obtain ⟨h1, h100⟩ := hpercent
      obtain ⟨balance, withdrawn, recorded, hw⟩ := hI.withdrew hs
      have hexact := recordedOf_exact m pool hw.balance_pos h1 h100 read
      rw [← hw.recorded_eq, ← hw.withdrawn_eq] at hexact
      by_cases hread : recorded = withdrawn * m.flpPrice pool
      · by_cases hroom : s.journal.length < MAX_ENTRIES
        · exact .inl ⟨⟨hroom, hexact.mp hread⟩, hI.withdraw hw h1 h100 hroom hread⟩
        · exact .inr ⟨fun hgood => hroom hgood.1,
            not_inBalance_of_withdraw hI hw h1 hroom hread⟩
      · exact .inr ⟨fun hgood => hread (hexact.mpr hgood.2), not_inBalance_of_inexact hw hread⟩
    · cases hs
  | stake pool amountUsd listed | unstake pool percent listed =>
    dsimp only at hs
    split at hs
    · obtain ⟨rfl, rfl⟩ := Prod.mk.inj (Option.some.inj hs)
      by_cases hsame : listed = amount s.tokens (pool, .sFLP)
      · exact .inl ⟨hsame, hI.list hsame⟩
      · rw [List.append_nil]
        exact .inr ⟨hsame, not_inBalance_of_list hI hsame⟩
    · cases hs

end Earn

open Earn

/-- **The profit.** After every operation the profit is zero, and every withdrawal was recorded
with the value that was taken out, exactly as long as the balances are read when the
computation expects them, the journal has room, and no staked LP turns up in the wallet. -/
theorem inBalance_iff (m : PoolPrices) (ops : List EarnOperation) :
    (earn m).Always (InBalance m) (earn m).init [] ops ↔
      (earn m).Along Recorded (earn m).init [] ops :=
  Machine.always_iff_along_of_step (I := EarnInv m) (fun hI => hI.inBalance)
    (fun hI hs => hI.step hs) (EarnInv.init m) ops

/-! ## A withdrawal of everything -/

/-- Every token at a dollar. -/
def atADollar : PoolPrices where
  flpPrice := fun _ => 1
  sflpPrice := fun _ => 1
  flpPrice_pos := fun _ => zero_lt_one
  sflpPrice_pos := fun _ => zero_lt_one

def depositAndWithdraw : List EarnOperation :=
  [.deposit "crypto" 100, .withdraw "crypto" 100 .after]

/-- A hundred dollars go in and come out, and the profit is a loss of a hundred dollars. -/
theorem not_inBalance : ¬ ∀ m s h, (earn m).Reachable s h → InBalance m s h := by
  intro hall
  have hrun : ((earn atADollar).run depositAndWithdraw).map
      (fun p => ((earnPnl atADollar p.1.tokens p.1.journal).pnl, dust atADollar p.1.tokens)) =
      some (-100, 0) := by
    decide +kernel
  obtain ⟨⟨s, h⟩, hs, hend⟩ := Option.map_eq_some_iff.mp hrun
  obtain ⟨hpnl, hdust⟩ := Prod.mk.inj hend
  have hprofit := (hall atADollar s h (Machine.reachable_of_run hs)).profit
  dsimp only at hpnl hdust
  rw [hpnl, hdust] at hprofit
  exact absurd hprofit (by norm_num)

end FlashEdge
