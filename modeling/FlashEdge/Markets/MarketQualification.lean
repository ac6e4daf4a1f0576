import FlashEdge.Js
import FlashEdge.Markets.PerfMonitor
import FlashEdge.Theory.Machine
import FlashEdge.Theory.OrderedMap
import Mathlib.Data.List.DropRight
import Mathlib.Tactic.Linarith

/-!
# Qualified markets (`markets/market-qualification.ts`)

A market that was discovered trades on paper first: its signals are recorded with a hypothetical
profit, and it is qualified for real trades when they are good enough, disabled when a qualified
one turns out bad. Sums of profits are exact here, and any function stands for the square root.

- `MarketQualification.record`: what one signal does to a market.
- `Kept`: what the record of a market says about all its signals.
- `kept_record`: one signal keeps it.
- `qualifications_kept`: along every run it holds of every market.
-/

namespace FlashEdge

open MarketPerfMonitor (MarketTier)

def MIN_SIGNALS_FOR_PROMOTION : ℕ := 20
def MAX_SIGNALS_TRACKED : ℕ := 200

inductive QualificationStatus where
  | SHADOW
  | QUALIFIED
  | DISABLED
deriving DecidableEq

inductive MarketType where
  | CRYPTO
  | EQUITY
  | INDEX
  | FOREX
  | COMMODITY
  | UNKNOWN
deriving DecidableEq

structure MarketSignal where
  timestamp : ℚ
  direction : TradeSide
  score : JsNumber
  hypotheticalPnl : ℚ

structure MarketQualification where
  symbol : String
  status : QualificationStatus
  tier : MarketTier
  signals : List MarketSignal := []
  totalSignals : ℕ := 0
  winCount : ℕ := 0
  totalPnl : ℚ := 0
  ev : ℚ := 0
  winRate : ℚ := 0
  sharpe : ℚ := 0
  confidenceScore : ℚ
  promotedAt : Option ℚ := none
  disabledAt : Option ℚ := none

def TIER_1_MARKETS : List String :=
  ["SOL", "BTC", "ETH", "BNB", "ZEC", "XAU", "XAG", "CRUDEOIL", "NATGAS", "EUR", "GBP", "USDJPY",
    "USDCNH"]

/-- The type of a market comes from the registry. -/
def assignTier (getMarketType : String → MarketType) (symbol : String) : MarketTier :=
  if symbol ∈ TIER_1_MARKETS then .TIER_1
  else
    match getMarketType symbol with
    | .CRYPTO => .TIER_2
    | .EQUITY | .INDEX | .FOREX | .COMMODITY => .TIER_3
    | .UNKNOWN => .TIER_3

/-! ## One market -/

namespace MarketQualification

/-- The sum of the profits. -/
def pnlSum (signals : List MarketSignal) : ℚ :=
  signals.foldl (fun s sig => s + sig.hypotheticalPnl) 0

/-- `computeSharpe`, with a square root. -/
def computeSharpe (sqrt : ℚ → ℚ) (signals : List MarketSignal) : ℚ :=
  if signals.length < 5 then 0
  else
    let mean := pnlSum signals / signals.length
    let variance :=
      signals.foldl (fun s sig => s + (sig.hypotheticalPnl - mean) ^ 2) 0 / signals.length
    let stddev := sqrt variance
    if stddev = 0 then 0 else mean / stddev

/-- The points for a positive expected value, twice as many if the recent half agrees. -/
def evPoints (qual : MarketQualification) : ℚ :=
  if 0 < qual.ev then
    let recent := qual.signals.rtake (max 10 (qual.signals.length / 2))
    if 5 ≤ recent.length then if 0 < pnlSum recent / recent.length then 30 else 15 else 15
  else 0

/-- The points for the win rate. -/
def winRatePoints (qual : MarketQualification) : ℚ :=
  if 45 / 100 ≤ qual.winRate then min 25 ((qual.winRate - 45 / 100) / (20 / 100) * 25) else 0

def computeConfidenceScore (qual : MarketQualification) : ℚ :=
  if qual.totalSignals < 5 then 0
  else
    let volPts := min 30 ((qual.totalSignals : ℚ) / 40 * 30)
    let sharpePts := min 15 (max 0 qual.sharpe * 15)
    min 100 (max 0 (volPts + qual.evPoints + qual.winRatePoints + sharpePts))

/-- The criteria for the promotion. -/
def MeetsThreshold (qual : MarketQualification) : Prop :=
  MIN_SIGNALS_FOR_PROMOTION ≤ qual.totalSignals ∧ 0 < qual.ev ∧ 45 / 100 ≤ qual.winRate ∧
    60 ≤ qual.confidenceScore

instance (qual : MarketQualification) : Decidable qual.MeetsThreshold := by
  unfold MeetsThreshold
  infer_instance

/-- The signal is kept and counted, and the statistics are computed anew. -/
def recount (sqrt : ℚ → ℚ) (qual : MarketQualification) (signal : MarketSignal) :
    MarketQualification :=
  let signals := qual.signals ++ [signal]
  let signals := if MAX_SIGNALS_TRACKED < signals.length then signals.tail else signals
  let totalSignals := qual.totalSignals + 1
  let totalPnl := qual.totalPnl + signal.hypotheticalPnl
  let winCount := if 0 < signal.hypotheticalPnl then qual.winCount + 1 else qual.winCount
  let qual := { qual with
    signals, totalSignals, totalPnl, winCount
    ev := if 0 < totalSignals then totalPnl / totalSignals else 0
    winRate := if 0 < totalSignals then (winCount : ℚ) / totalSignals else 0
    sharpe := computeSharpe sqrt signals }
  { qual with confidenceScore := qual.computeConfidenceScore }

/-- A market on paper that meets the criteria is qualified. -/
def promote (qual : MarketQualification) (now : ℚ) : MarketQualification :=
  if qual.status = .SHADOW ∧ qual.MeetsThreshold then
    { qual with status := .QUALIFIED, promotedAt := some now }
  else qual

/-- A qualified market with a negative expected value after many signals is disabled. -/
def autoDisable (qual : MarketQualification) (now : ℚ) : MarketQualification :=
  if qual.status = .QUALIFIED ∧ MIN_SIGNALS_FOR_PROMOTION * 2 ≤ qual.totalSignals ∧ qual.ev < 0 then
    { qual with status := .DISABLED, disabledAt := some now }
  else qual

/-- What one signal does to its market. -/
def record (sqrt : ℚ → ℚ) (qual : MarketQualification) (signal : MarketSignal) :
    MarketQualification :=
  ((qual.recount sqrt signal).promote signal.timestamp).autoDisable signal.timestamp

end MarketQualification

/-! ## The tracker -/

/-- The markets under their symbols. -/
abbrev MarketQualificationTracker := OrderedMap String MarketQualification

namespace MarketQualificationTracker

/-- The record of a market without signals. -/
def initial (getMarketType : String → MarketType) (symbol : String) : MarketQualification where
  symbol
  status := if symbol ∈ TIER_1_MARKETS then .QUALIFIED else .SHADOW
  tier := assignTier getMarketType symbol
  confidenceScore := if symbol ∈ TIER_1_MARKETS then 100 else 0

/-- The record of a market, or the one that `ensureQualification` creates for it. -/
def qualification (getMarketType : String → MarketType) (s : MarketQualificationTracker)
    (symbol : String) : MarketQualification :=
  (s.get? symbol).getD (initial getMarketType symbol)

/-- The tracker after `ensureQualification`. -/
def ensureQualification (getMarketType : String → MarketType) (s : MarketQualificationTracker)
    (symbol : String) : MarketQualificationTracker :=
  s.set symbol (s.qualification getMarketType symbol)

def recordSignal (getMarketType : String → MarketType) (sqrt : ℚ → ℚ)
    (s : MarketQualificationTracker) (now : ℚ) (symbol : String) (direction : TradeSide)
    (score : JsNumber) (hypotheticalPnl : ℚ) : MarketQualificationTracker :=
  let upper := toUpperCase symbol
  s.set upper ((s.qualification getMarketType upper).record sqrt
    { timestamp := now
      direction
      score := (JsNumber.finite 0).max ((JsNumber.finite 1).min score)
      hypotheticalPnl })

/-- Whether real trades of a market are allowed. -/
def eligible (qual : MarketQualification) (totalTradeCount : ℕ) : Bool :=
  if qual.status = .DISABLED then false
  else if qual.tier = .TIER_1 then true
  else if qual.status = .SHADOW then false
  else if totalTradeCount < 50 then false
  else if totalTradeCount < 150 then qual.tier ≠ .TIER_3
  else true

def isEligibleForTrading (getMarketType : String → MarketType) (s : MarketQualificationTracker)
    (symbol : String) (totalTradeCount : ℕ) : MarketQualificationTracker × Bool :=
  let upper := toUpperCase symbol
  (s.ensureQualification getMarketType upper,
    eligible (s.qualification getMarketType upper) totalTradeCount)

end MarketQualificationTracker

/-! ## Runs -/

/-- A recorded signal: its market, its profit, and the market after it. -/
structure RecordedSignal where
  market : String
  hypotheticalPnl : ℚ
  after : MarketQualification

/-- The calls, each with the time at which it is made. -/
inductive QualificationCall where
  | recordSignal (now : ℚ) (symbol : String) (direction : TradeSide) (score : JsNumber)
      (hypotheticalPnl : ℚ)
  | isEligibleForTrading (symbol : String) (totalTradeCount : ℕ)
  | getQualification (symbol : String)

section Tracker

variable (getMarketType : String → MarketType) (sqrt : ℚ → ℚ)

/-- A tracker that starts without a file. -/
def qualificationTracker :
    Machine MarketQualificationTracker QualificationCall RecordedSignal where
  init := OrderedMap.empty
  step s
    | .recordSignal now symbol direction score hypotheticalPnl =>
      let s' := s.recordSignal getMarketType sqrt now symbol direction score hypotheticalPnl
      some (s', [{
        market := toUpperCase symbol
        hypotheticalPnl
        after := s'.qualification getMarketType (toUpperCase symbol) }])
    | .isEligibleForTrading symbol totalTradeCount =>
      some ((s.isEligibleForTrading getMarketType symbol totalTradeCount).1, [])
    | .getQualification symbol =>
      some (s.ensureQualification getMarketType (toUpperCase symbol), [])

end Tracker

/-! ## What the record of a market says -/

/-- The signals of a market. -/
def signalsOf (symbol : String) (h : List RecordedSignal) : List RecordedSignal :=
  h.filter fun r => r.market = symbol

/-- What holds of a market after its signals. -/
structure Kept (records : List RecordedSignal) (symbol : String) (qual : MarketQualification) :
    Prop where
  totalSignals : qual.totalSignals = records.length
  winCount : qual.winCount = records.countP fun r => 0 < r.hypotheticalPnl
  totalPnl : qual.totalPnl = (records.map RecordedSignal.hypotheticalPnl).sum
  ev : qual.ev = qual.totalPnl / qual.totalSignals
  winRate : qual.winRate = qual.winCount / qual.totalSignals
  confidence : 0 ≤ qual.confidenceScore ∧ qual.confidenceScore ≤ 100
  tier : qual.tier = .TIER_1 ↔ symbol ∈ TIER_1_MARKETS
  /-- outside tier 1, `QUALIFIED` was earned at some record -/
  qualified : qual.tier ≠ .TIER_1 → qual.status = .QUALIFIED →
    ∃ r ∈ records, r.after.MeetsThreshold
  /-- a bad market is not `QUALIFIED` -/
  good : qual.status = .QUALIFIED → 40 ≤ qual.totalSignals → 0 ≤ qual.ev
  /-- `DISABLED` is never left -/
  disabled : ∀ r ∈ records, r.after.status = .DISABLED → qual.status = .DISABLED
  /-- and never eligible -/
  ineligible : qual.status = .DISABLED →
    ∀ totalTradeCount, MarketQualificationTracker.eligible qual totalTradeCount = false

/-! ## One signal -/

namespace MarketQualification

variable {sqrt : ℚ → ℚ} {qual : MarketQualification} {signal : MarketSignal}

/-- The statistics of a record; promoting and disabling leave them alone. -/
structure SameStatistics (qual qual' : MarketQualification) : Prop where
  tier : qual'.tier = qual.tier
  totalSignals : qual'.totalSignals = qual.totalSignals
  winCount : qual'.winCount = qual.winCount
  totalPnl : qual'.totalPnl = qual.totalPnl
  ev : qual'.ev = qual.ev
  winRate : qual'.winRate = qual.winRate
  confidenceScore : qual'.confidenceScore = qual.confidenceScore

theorem sameStatistics_promote (now : ℚ) : SameStatistics qual (qual.promote now) := by
  unfold promote
  split <;> exact ⟨rfl, rfl, rfl, rfl, rfl, rfl, rfl⟩

theorem sameStatistics_autoDisable (now : ℚ) : SameStatistics qual (qual.autoDisable now) := by
  unfold autoDisable
  split <;> exact ⟨rfl, rfl, rfl, rfl, rfl, rfl, rfl⟩

theorem SameStatistics.trans {qual' qual'' : MarketQualification} (h : SameStatistics qual qual')
    (h' : SameStatistics qual' qual'') : SameStatistics qual qual'' where
  tier := h'.tier.trans h.tier
  totalSignals := h'.totalSignals.trans h.totalSignals
  winCount := h'.winCount.trans h.winCount
  totalPnl := h'.totalPnl.trans h.totalPnl
  ev := h'.ev.trans h.ev
  winRate := h'.winRate.trans h.winRate
  confidenceScore := h'.confidenceScore.trans h.confidenceScore

theorem SameStatistics.meetsThreshold {qual' : MarketQualification}
    (h : SameStatistics qual qual') : qual'.MeetsThreshold ↔ qual.MeetsThreshold := by
  unfold MeetsThreshold
  rw [h.totalSignals, h.ev, h.winRate, h.confidenceScore]

theorem sameStatistics_record (sqrt : ℚ → ℚ) (qual : MarketQualification)
    (signal : MarketSignal) :
    SameStatistics (qual.recount sqrt signal) (qual.record sqrt signal) :=
  (sameStatistics_promote _).trans (sameStatistics_autoDisable _)

/-- After a signal there is one, so the quotients are quotients. -/
theorem recount_quotients :
    (qual.recount sqrt signal).ev =
        (qual.recount sqrt signal).totalPnl / (qual.recount sqrt signal).totalSignals ∧
      (qual.recount sqrt signal).winRate =
        (qual.recount sqrt signal).winCount / (qual.recount sqrt signal).totalSignals := by
  unfold recount
  dsimp only
  rw [if_pos (Nat.succ_pos _), if_pos (Nat.succ_pos _)]
  exact ⟨rfl, rfl⟩

/-- **Everything that one signal can do to the status.** -/
theorem record_status_cases (sqrt : ℚ → ℚ) (qual : MarketQualification)
    (signal : MarketSignal) :
    ((qual.record sqrt signal).status = qual.status ∧
        ¬ (qual.status = .QUALIFIED ∧ 40 ≤ (qual.recount sqrt signal).totalSignals ∧
          (qual.recount sqrt signal).ev < 0)) ∨
      ((qual.record sqrt signal).status = .QUALIFIED ∧ qual.status = .SHADOW ∧
        (qual.recount sqrt signal).MeetsThreshold) ∨
      ((qual.record sqrt signal).status = .DISABLED ∧ qual.status = .QUALIFIED) := by
  have hstatus : (qual.recount sqrt signal).status = qual.status := rfl
  unfold record
  generalize qual.recount sqrt signal = counted at hstatus ⊢
  rw [← hstatus]
  unfold promote
  split
  · next hpromoted =>
    -- what is promoted now has a positive expected value
    refine .inr (.inl ⟨?_, hpromoted⟩)
    unfold autoDisable
    rw [if_neg fun hbad => absurd hbad.2.2 (not_lt.mpr hpromoted.2.2.1.le)]
  · unfold autoDisable
    split
    · next hbad => exact .inr (.inr ⟨rfl, hbad.1⟩)
    · next hgood => exact .inl ⟨rfl, hgood⟩

theorem computeConfidenceScore_mem : 0 ≤ qual.computeConfidenceScore ∧
    qual.computeConfidenceScore ≤ 100 := by
  unfold computeConfidenceScore
  split
  · exact ⟨le_rfl, by norm_num⟩
  · exact ⟨le_min (by norm_num) (le_max_left _ _), min_le_left _ _⟩

end MarketQualification

/-! ## The record of a market -/

theorem eligible_disabled {qual : MarketQualification} (h : qual.status = .DISABLED)
    (totalTradeCount : ℕ) :
    MarketQualificationTracker.eligible qual totalTradeCount = false := if_pos h

theorem assignTier_eq_tier1 {getMarketType : String → MarketType} {symbol : String} :
    assignTier getMarketType symbol = .TIER_1 ↔ symbol ∈ TIER_1_MARKETS := by
  unfold assignTier
  split
  · next h => simp [h]
  · next h =>
    cases getMarketType symbol <;> simp [h]

/-- A market without signals. -/
theorem kept_initial (getMarketType : String → MarketType) (symbol : String) :
    Kept [] symbol (MarketQualificationTracker.initial getMarketType symbol) where
  totalSignals := rfl
  winCount := rfl
  totalPnl := rfl
  ev := by simp [MarketQualificationTracker.initial]
  winRate := by simp [MarketQualificationTracker.initial]
  confidence := by
    unfold MarketQualificationTracker.initial
    dsimp only
    split <;> norm_num
  tier := assignTier_eq_tier1
  qualified htier hstatus := by
    have hpaper : symbol ∉ TIER_1_MARKETS := fun h => htier (assignTier_eq_tier1.mpr h)
    unfold MarketQualificationTracker.initial at hstatus
    rw [if_neg hpaper] at hstatus
    cases hstatus
  good _ hmany := absurd (show 40 ≤ 0 from hmany) (by decide)
  disabled r hr := by cases hr
  ineligible h := eligible_disabled h

/-- **One signal more.** -/
theorem Kept.record {records : List RecordedSignal} {symbol : String}
    {qual : MarketQualification} (h : Kept records symbol qual) (sqrt : ℚ → ℚ)
    (signal : MarketSignal) :
    Kept (records ++ [⟨symbol, signal.hypotheticalPnl, qual.record sqrt signal⟩]) symbol
      (qual.record sqrt signal) := by
  have hsame := MarketQualification.sameStatistics_record sqrt qual signal
  refine ⟨?_, ?_, ?_, ?_, ?_, ?_, ?_, ?_, ?_, ?_, eligible_disabled⟩
  · rw [hsame.totalSignals, List.length_append, ← h.totalSignals]
    rfl
  · rw [hsame.winCount, List.countP_append, ← h.winCount]
    show (if 0 < signal.hypotheticalPnl then qual.winCount + 1 else qual.winCount) = _
    by_cases hwin : 0 < signal.hypotheticalPnl
    · rw [if_pos hwin, List.countP_cons_of_pos (by simpa using hwin), List.countP_nil]
    · rw [if_neg hwin, List.countP_cons_of_neg (by simpa using hwin), List.countP_nil]
      rfl
  · rw [hsame.totalPnl, List.map_append, List.sum_append, ← h.totalPnl]
    simp [MarketQualification.recount]
  · rw [hsame.ev, hsame.totalPnl, hsame.totalSignals]
    exact MarketQualification.recount_quotients.1
  · rw [hsame.winRate, hsame.winCount, hsame.totalSignals]
    exact MarketQualification.recount_quotients.2
  · rw [hsame.confidenceScore]
    exact MarketQualification.computeConfidenceScore_mem
  · rw [hsame.tier]
    exact h.tier
  · intro htier hqualified
    rcases MarketQualification.record_status_cases sqrt qual signal with
      ⟨hstatus, -⟩ | ⟨-, -, hmeets⟩ | ⟨hstatus, -⟩
    · rw [hsame.tier] at htier
      obtain ⟨r, hr, hmeets⟩ := h.qualified htier (hstatus.symm.trans hqualified)
      exact ⟨r, List.mem_append_left _ hr, hmeets⟩
    · exact ⟨_, List.mem_append_right _ List.mem_cons_self, hsame.meetsThreshold.mpr hmeets⟩
    · rw [hqualified] at hstatus
      cases hstatus
  · intro hqualified hmany
    rw [hsame.totalSignals] at hmany
    rw [hsame.ev]
    rcases MarketQualification.record_status_cases sqrt qual signal with
      ⟨hstatus, hgood⟩ | ⟨-, -, hmeets⟩ | ⟨hstatus, -⟩
    · exact not_lt.mp fun hneg => hgood ⟨hstatus.symm.trans hqualified, hmany, hneg⟩
    · exact hmeets.2.1.le
    · rw [hqualified] at hstatus
      cases hstatus
  · intro r hr hdisabled
    rcases List.mem_append.mp hr with hr | hr
    · have hwas := h.disabled r hr hdisabled
      rcases MarketQualification.record_status_cases sqrt qual signal with
        ⟨hstatus, -⟩ | ⟨-, hshadow, -⟩ | ⟨hstatus, -⟩
      · exact hstatus.trans hwas
      · rw [hwas] at hshadow
        cases hshadow
      · exact hstatus
    · obtain rfl := List.mem_singleton.mp hr
      exact hdisabled

/-! ## All markets -/

section Tracker

variable {getMarketType : String → MarketType} {sqrt : ℚ → ℚ} {s : MarketQualificationTracker}

theorem qualification_set (s : MarketQualificationTracker) (symbol symbol' : String)
    (qual : MarketQualification) :
    MarketQualificationTracker.qualification getMarketType (s.set symbol qual) symbol' =
      if symbol' = symbol then qual else s.qualification getMarketType symbol' := by
  unfold MarketQualificationTracker.qualification
  rw [OrderedMap.get?_set]
  split <;> rfl

/-- Creating the record of a market changes no record. -/
theorem qualification_ensure (symbol symbol' : String) :
    (s.ensureQualification getMarketType symbol).qualification getMarketType symbol' =
      s.qualification getMarketType symbol' := by
  unfold MarketQualificationTracker.ensureQualification
  rw [qualification_set]
  split
  · next h => rw [h]
  · rfl

theorem signalsOf_snoc (symbol : String) (h : List RecordedSignal) (r : RecordedSignal) :
    signalsOf symbol (h ++ [r]) =
      if r.market = symbol then signalsOf symbol h ++ [r] else signalsOf symbol h := by
  unfold signalsOf
  rw [List.filter_append]
  split
  · next hr => rw [List.filter_cons_of_pos (by simpa using hr), List.filter_nil]
  · next hr =>
    rw [List.filter_cons_of_neg (by simpa using hr), List.filter_nil, List.append_nil]

/-- Every market's record says what its signals were. -/
def RecordsKept (getMarketType : String → MarketType) (s : MarketQualificationTracker)
    (h : List RecordedSignal) : Prop :=
  ∀ symbol, Kept (signalsOf symbol h) symbol (s.qualification getMarketType symbol)

theorem RecordsKept.ensure {h : List RecordedSignal} (hkept : RecordsKept getMarketType s h)
    (symbol : String) :
    RecordsKept getMarketType (s.ensureQualification getMarketType symbol) h := by
  intro symbol'
  rw [qualification_ensure]
  exact hkept symbol'

/-- **The records of all markets are kept**, whatever is recorded and asked. -/
theorem qualifications_kept (getMarketType : String → MarketType) (sqrt : ℚ → ℚ)
    (calls : List QualificationCall) :
    (qualificationTracker getMarketType sqrt).Always (RecordsKept getMarketType)
      (qualificationTracker getMarketType sqrt).init [] calls := by
  have hinit : RecordsKept getMarketType OrderedMap.empty [] := kept_initial getMarketType
  refine Machine.always_of_invariant (I := RecordsKept getMarketType) id ?_ hinit calls
  intro s h call s' es hkept hs
  cases call with
  | recordSignal now symbol direction score hypotheticalPnl =>
    obtain ⟨rfl, rfl⟩ := Machine.some_pair hs
    intro symbol'
    unfold MarketQualificationTracker.recordSignal
    dsimp only
    rw [signalsOf_snoc, qualification_set, qualification_set, if_pos rfl]
    dsimp only
    by_cases hsymbol : symbol' = toUpperCase symbol
    · rw [if_pos hsymbol, if_pos hsymbol.symm, hsymbol]
      exact (hkept (toUpperCase symbol)).record sqrt ⟨now, direction, _, hypotheticalPnl⟩
    · rw [if_neg hsymbol, if_neg (Ne.symm hsymbol)]
      exact hkept symbol'
  | isEligibleForTrading symbol totalTradeCount =>
    obtain ⟨rfl, rfl⟩ := Machine.some_pair hs
    rw [List.append_nil]
    exact hkept.ensure _
  | getQualification symbol =>
    obtain ⟨rfl, rfl⟩ := Machine.some_pair hs
    rw [List.append_nil]
    exact hkept.ensure _

end Tracker

end FlashEdge
