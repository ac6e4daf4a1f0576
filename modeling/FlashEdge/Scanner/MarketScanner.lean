import FlashEdge.Js
import FlashEdge.Theory.Machine
import FlashEdge.Theory.OrderStatistics
import FlashEdge.Theory.OrderedMap
import Mathlib.Tactic.Linarith

/-!
# The market scanner (`scanner/market-scanner.ts`)

A scan rates every market by three signals, recommends a collateral from the balance it was
called with, and keeps the best `topN`. Results are cached for 30 seconds, calls share the scan
that is in flight, and a scan that takes too long gives its callers what is in the cache. Neither
the cache nor the scan in flight knows for which balance and which `topN` it was made.

- `scanResults`: what a scan computes for one balance and one `topN`.
- `marketScanner`: the calls of `scan` as a machine, in any interleaving.
- `FromCall`: a list as a scan for a balance and a `topN` gives it.
- `returns_fromCall`: along every run every call gets such a list for its own arguments or for
  those of an earlier call.
-/

namespace FlashEdge

namespace MarketScanner

/-! ## Rating a market -/

inductive SignalDirection where
  | bullish
  | bearish
  | neutral
deriving DecidableEq

structure StrategySignal where
  signal : SignalDirection
  confidence : JsNumber
deriving DecidableEq

inductive MarketRegime where
  | TRENDING
  | RANGING
  | HIGH_VOLATILITY
  | LOW_VOLATILITY
  | WHALE_DOMINATED
  | LOW_LIQUIDITY
deriving DecidableEq

structure RegimeWeights where
  momentum : ℚ
  meanReversion : ℚ
  whaleFollow : ℚ
  leverageMultiplier : ℚ
  collateralMultiplier : ℚ

def getWeights : MarketRegime → RegimeWeights
  | .TRENDING => ⟨7 / 10, 2 / 10, 1 / 10, 1, 1⟩
  | .RANGING => ⟨2 / 10, 6 / 10, 2 / 10, 1, 1⟩
  | .HIGH_VOLATILITY => ⟨4 / 10, 3 / 10, 3 / 10, 7 / 10, 1⟩
  | .LOW_VOLATILITY => ⟨3 / 10, 5 / 10, 2 / 10, 1, 1⟩
  | .WHALE_DOMINATED => ⟨2 / 10, 2 / 10, 6 / 10, 85 / 100, 1⟩
  | .LOW_LIQUIDITY => ⟨3 / 10, 4 / 10, 3 / 10, 7 / 10, 5 / 10⟩

structure MarketData where
  symbol : String
  price : JsNumber

structure MarketOI where
  market : String
  longOi : JsNumber
  shortOi : JsNumber

/-- The three signals of a market. -/
structure Signals where
  momentum : StrategySignal
  meanReversion : StrategySignal
  whaleFollow : StrategySignal
deriving DecidableEq

/-- What a scan reads: the answers of the inspector, and what the strategies and the regime
detector make of them. -/
structure ScanData where
  markets : List MarketData
  dailyVolumes : List JsNumber
  openInterest : List MarketOI
  signals : MarketData → Signals
  regimes : String → Option MarketRegime

structure Opportunity where
  market : String
  direction : TradeSide
  confidence : JsNumber
  volumeScore : JsNumber
  oiScore : JsNumber
  whaleScore : JsNumber
  totalScore : JsNumber
  recommendedLeverage : JsNumber
  recommendedCollateral : JsNumber
  signals : Signals
  regime : MarketRegime

def computeScore (signalConfidence volumeStrength oiTrend whaleActivity : JsNumber) : JsNumber :=
  signalConfidence * .finite (1 / 2) + volumeStrength * .finite (1 / 5) + oiTrend * .finite (1 / 5)
    + whaleActivity * .finite (1 / 10)

def computeVolumeStrength (dailies : List JsNumber) : JsNumber :=
  if dailies.length < 6 then .finite (1 / 2)
  else
    let recent := ((dailies.drop (dailies.length - 3)).foldl (· + ·) 0).div (.finite 3)
    let prior := (((dailies.drop (dailies.length - 6)).take 3).foldl (· + ·) 0).div (.finite 3)
    if prior = 0 then .finite (1 / 2)
    else
      let growth := (recent - prior).div prior
      JsNumber.min (.finite 1) (JsNumber.max 0 (.finite (1 / 2) + growth * .finite (1 / 2)))

def computeOiScore (market : MarketData) (openInterest : List MarketOI) : JsNumber :=
  match openInterest.find? fun m => toUpperCase m.market = toUpperCase market.symbol with
  | none => .finite (1 / 2)
  | some oi =>
    let total := oi.longOi + oi.shortOi
    if total = 0 then .finite (1 / 2)
    else
      let offCentre := oi.longOi.div total - .finite (1 / 2)
      let skew := offCentre.max offCentre.neg * .finite 2
      JsNumber.min (.finite 1) (.finite (3 / 10) + skew * .finite (7 / 10))

def computeWhaleScore (signal : StrategySignal) : JsNumber :=
  if signal.signal = .neutral then .finite (3 / 10)
  else JsNumber.min (.finite 1) (.finite (3 / 10) + signal.confidence * .finite (7 / 10))

/-- The weighted confidence of the signals in one direction. -/
def consensus (direction : SignalDirection) (signals : Signals) (weights : RegimeWeights) :
    JsNumber :=
  [(signals.momentum, weights.momentum), (signals.meanReversion, weights.meanReversion),
    (signals.whaleFollow, weights.whaleFollow)].foldl
    (fun sum s => if s.1.signal = direction then sum + s.1.confidence * .finite s.2 else sum) 0

/-- `x >= bound`. -/
def atLeast (x : JsNumber) (bound : ℚ) : Bool := x.gt (.finite bound) || x = .finite bound

/-- 5% of the balance, between $10 and $1000. -/
def collateral (balance : JsNumber) (multiplier : ℚ) : JsNumber :=
  JsNumber.min (.finite 1000) (JsNumber.max (.finite 10)
    (balance * .finite (1 / 20) * .finite multiplier).round)

/-- The body of the loop over the markets: no opportunity without a direction. -/
def evaluateMarket (balance : JsNumber) (d : ScanData) (market : MarketData) :
    Option Opportunity :=
  let signals := d.signals market
  let regime := (d.regimes (toUpperCase market.symbol)).getD .RANGING
  let weights := getWeights regime
  let bullish := consensus .bullish signals weights
  let bearish := consensus .bearish signals weights
  -- `NaN` equals nothing
  if bullish = bearish ∧ bullish ≠ .nan then none
  else
    let confidence := (bullish.max bearish).div (bullish + bearish + .finite (1 / 2))
    let volumeScore := computeVolumeStrength d.dailyVolumes
    let oiScore := computeOiScore market d.openInterest
    let whaleScore := computeWhaleScore signals.whaleFollow
    let leverage : ℚ :=
      if atLeast confidence (65 / 100) then 3 else if atLeast confidence (4 / 10) then 2 else 3 / 2
    some
      { market := market.symbol
        direction := if bullish.gt bearish then .Long else .Short
        confidence
        volumeScore
        oiScore
        whaleScore
        totalScore := computeScore confidence volumeScore oiScore whaleScore
        recommendedLeverage :=
          JsNumber.max (.finite (11 / 10)) (.finite (leverage * weights.leverageMultiplier))
        recommendedCollateral := collateral balance weights.collateralMultiplier
        signals
        regime }

/-- The order of the comparison `b.totalScore - a.totalScore`. -/
def inOrder (a b : Opportunity) : Prop := (b.totalScore - a.totalScore).gt 0 = false

instance (a b : Opportunity) : Decidable (inOrder a b) := by
  unfold inOrder
  infer_instance

/-- `l.slice(0, end)`: a negative end counts from the end. -/
def sliceTo {α : Type} (l : List α) : JsNumber → List α
  | .finite q => l.take (if 0 ≤ q then ⌊q⌋ else l.length + ⌈q⌉).toNat
  | .posInfinity => l
  | .negInfinity => []
  | .nan => []

def isValid (m : MarketData) : Bool := m.price.gt 0 && m.price.isFinite

/-- The results of `doScan`, if there are markets with valid prices. -/
def scanResults (balance topN : JsNumber) (d : ScanData) : Option (List Opportunity) :=
  let validMarkets := d.markets.filter isValid
  if validMarkets = [] then none
  else
    let opportunities := validMarkets.filterMap (evaluateMarket balance d)
    some (sliceTo (opportunities.insertionSort inOrder) topN)

/-! ## Calls -/

def SCAN_CACHE_TTL : ℚ := 30000

/-- A `doScan` that runs, and whether the call that started it still races with the timeout. -/
structure Scan where
  balance : JsNumber
  topN : JsNumber
  racing : Bool := true

/-- Calls are numbered, and a scan has the number of the call that starts it. -/
inductive ScanAction where
  | call (now : ℚ) (balance topN : JsNumber)
  | data (scan : ℕ) (d : ScanData) (now : ℚ)
  | fails (scan : ℕ)
  | timeout (scan : ℕ)
  | resumes (call : ℕ)
  | clearCache

inductive ScanEvent where
  | called (call : ℕ) (balance topN : JsNumber)
  | started (call : ℕ)
  | aborted (call : ℕ)
  | returned (call : ℕ) (results : List Opportunity)

end MarketScanner

open MarketScanner

/-- The fields of the scanner, the scans that run, what the promises of scans are settled with,
and which promise each call waits for. -/
structure MarketScanner where
  calls : ℕ := 0
  cachedResults : Option (List Opportunity) := none
  cacheExpiry : ℚ := 0
  scanInProgress : Option ℕ := none
  scans : OrderedMap ℕ Scan := .empty
  settled : OrderedMap ℕ (List Opportunity) := .empty
  waiting : OrderedMap ℕ ℕ := .empty

namespace MarketScanner

/-- The scanner's answer when a scan is aborted. -/
def cachedOrEmpty (s : MarketScanner) : List Opportunity := s.cachedResults.getD []

/-- The race is decided. -/
def settle (s : MarketScanner) (scan : ℕ) (racing : Bool) (results : List Opportunity) :
    MarketScanner :=
  if racing then { s with settled := s.settled.set scan results } else s

/-- `scan`, up to its first `await`. -/
def call (s : MarketScanner) (now : ℚ) (balance topN : JsNumber) :
    MarketScanner × List ScanEvent :=
  let id := s.calls
  let s := { s with calls := s.calls + 1 }
  match s.cachedResults.filter fun _ => now < s.cacheExpiry with
  | some results => (s, [.called id balance topN, .returned id results])
  | none =>
    match s.scanInProgress with
    | some scan => ({ s with waiting := s.waiting.set id scan }, [.called id balance topN])
    | none =>
      ({ s with
          scanInProgress := some id
          scans := s.scans.set id { balance, topN }
          waiting := s.waiting.set id id },
        [.called id balance topN, .started id])

/-- The data of a scan is there: `doScan` runs to its end, also when nobody waits any more. -/
def finish (s : MarketScanner) (id : ℕ) (scan : Scan) (d : ScanData) (now : ℚ) : MarketScanner :=
  let s := { s with scans := s.scans.delete id }
  match scanResults scan.balance scan.topN d with
  | none => s.settle id scan.racing []
  | some results =>
    { s with
        cachedResults := some results
        cacheExpiry := now + SCAN_CACHE_TTL }.settle id scan.racing results

/-- A call goes on after its promise is settled; the one that started the scan ends it. -/
def resume (s : MarketScanner) (call scan : ℕ) : MarketScanner :=
  { s with
      scanInProgress := if call = scan then none else s.scanInProgress
      waiting := s.waiting.delete call }

def step (s : MarketScanner) : ScanAction → Option (MarketScanner × List ScanEvent)
  | .call now balance topN => some (s.call now balance topN)
  | .data id d now => (s.scans.get? id).map fun scan => (s.finish id scan d now, [])
  | .fails id =>
    (s.scans.get? id).map fun scan =>
      ({ s with scans := s.scans.delete id }.settle id scan.racing s.cachedOrEmpty,
        if scan.racing then [.aborted id] else [])
  | .timeout id =>
    ((s.scans.get? id).filter Scan.racing).map fun scan =>
      ({ s with scans := s.scans.set id { scan with racing := false } }.settle id true
          s.cachedOrEmpty,
        [.aborted id])
  | .resumes call =>
    (s.waiting.get? call).bind fun scan =>
      (s.settled.get? scan).map fun results => (s.resume call scan, [.returned call results])
  | .clearCache => some ({ s with cachedResults := none, cacheExpiry := 0 }, [])

end MarketScanner

/-- Calls of `scan` and what they wait for, in any interleaving. -/
def marketScanner : Machine MarketScanner ScanAction ScanEvent where
  init := {}
  step := MarketScanner.step

namespace MarketScanner

/-! ## Numbers that are finite -/

/-- `Number.isFinite(x)`. -/
def IsFinite (x : JsNumber) : Prop := ∃ q, x = .finite q

theorem IsFinite.add {x y : JsNumber} (hx : IsFinite x) (hy : IsFinite y) : IsFinite (x + y) := by
  obtain ⟨p, rfl⟩ := hx
  obtain ⟨q, rfl⟩ := hy
  exact ⟨p + q, rfl⟩

theorem IsFinite.sub {x y : JsNumber} (hx : IsFinite x) (hy : IsFinite y) : IsFinite (x - y) := by
  obtain ⟨p, rfl⟩ := hx
  obtain ⟨q, rfl⟩ := hy
  exact ⟨p - q, JsNumber.finite_sub_finite p q⟩

theorem IsFinite.mul {x : JsNumber} (hx : IsFinite x) (q : ℚ) : IsFinite (x * .finite q) := by
  obtain ⟨p, rfl⟩ := hx
  exact ⟨p * q, rfl⟩

theorem IsFinite.div {x y : JsNumber} (hx : IsFinite x) (hy : IsFinite y) (hne : y ≠ 0) :
    IsFinite (x.div y) := by
  obtain ⟨p, rfl⟩ := hx
  obtain ⟨q, rfl⟩ := hy
  have hq : q ≠ 0 := fun h => hne (congrArg JsNumber.finite h)
  exact ⟨p / q, if_neg hq⟩

theorem IsFinite.max {x y : JsNumber} (hx : IsFinite x) (hy : IsFinite y) : IsFinite (x.max y) := by
  obtain ⟨p, rfl⟩ := hx
  obtain ⟨q, rfl⟩ := hy
  show IsFinite (if (JsNumber.finite p).gt (.finite q) then .finite p else .finite q)
  split
  · exact ⟨p, rfl⟩
  · exact ⟨q, rfl⟩

theorem IsFinite.min {x y : JsNumber} (hx : IsFinite x) (hy : IsFinite y) : IsFinite (x.min y) := by
  obtain ⟨p, rfl⟩ := hx
  obtain ⟨q, rfl⟩ := hy
  show IsFinite (if (JsNumber.finite p).gt (.finite q) then .finite q else .finite p)
  split
  · exact ⟨q, rfl⟩
  · exact ⟨p, rfl⟩

theorem finite_foldl_add {l : List JsNumber} (hl : ∀ x ∈ l, IsFinite x) {sum : JsNumber}
    (hsum : IsFinite sum) : IsFinite (l.foldl (· + ·) sum) := by
  induction l generalizing sum with
  | nil => exact hsum
  | cons x l ih =>
    exact ih (fun y hy => hl y (List.mem_cons_of_mem _ hy)) (hsum.add (hl x List.mem_cons_self))

/-! ## Scores -/

/-- The numbers that a scan reads are finite, and no confidence is negative. -/
structure ScanData.AllFinite (d : ScanData) : Prop where
  volumes : ∀ x ∈ d.dailyVolumes, IsFinite x
  openInterest : ∀ oi ∈ d.openInterest, IsFinite oi.longOi ∧ IsFinite oi.shortOi
  confidences : ∀ m, ∀ s ∈ [(d.signals m).momentum, (d.signals m).meanReversion,
    (d.signals m).whaleFollow], ∃ q, s.confidence = .finite q ∧ 0 ≤ q

theorem finite_computeVolumeStrength {dailies : List JsNumber} (h : ∀ x ∈ dailies, IsFinite x) :
    IsFinite (computeVolumeStrength dailies) := by
  have hthree : JsNumber.finite 3 ≠ 0 := by decide
  have hrecent : IsFinite
      (((dailies.drop (dailies.length - 3)).foldl (· + ·) 0).div (.finite 3)) :=
    (finite_foldl_add (fun x hx => h x (List.mem_of_mem_drop hx)) ⟨0, rfl⟩).div ⟨3, rfl⟩ hthree
  have hprior : IsFinite
      ((((dailies.drop (dailies.length - 6)).take 3).foldl (· + ·) 0).div (.finite 3)) :=
    (finite_foldl_add (fun x hx => h x (List.mem_of_mem_drop (List.mem_of_mem_take hx)))
      ⟨0, rfl⟩).div ⟨3, rfl⟩ hthree
  unfold computeVolumeStrength
  split
  · exact ⟨_, rfl⟩
  · dsimp only
    split
    · exact ⟨_, rfl⟩
    · next hne =>
      have hgrowth := ((hrecent.sub hprior).div hprior hne).mul (1 / 2)
      exact .min ⟨1, rfl⟩ (.max ⟨0, rfl⟩ (.add ⟨1 / 2, rfl⟩ hgrowth))

theorem finite_computeOiScore {d : ScanData} (hd : d.AllFinite) (market : MarketData) :
    IsFinite (computeOiScore market d.openInterest) := by
  unfold computeOiScore
  split
  · exact ⟨_, rfl⟩
  · next oi hoi =>
    obtain ⟨hlong, hshort⟩ := hd.openInterest oi (List.mem_of_find?_eq_some hoi)
    dsimp only
    split
    · exact ⟨_, rfl⟩
    · next hne =>
      have hoff : IsFinite (oi.longOi.div (oi.longOi + oi.shortOi) - .finite (1 / 2)) :=
        (hlong.div (hlong.add hshort) hne).sub ⟨1 / 2, rfl⟩
      have hneg : IsFinite (oi.longOi.div (oi.longOi + oi.shortOi) - .finite (1 / 2)).neg := by
        obtain ⟨q, hq⟩ := hoff
        exact ⟨-q, congrArg JsNumber.neg hq⟩
      exact .min ⟨1, rfl⟩ (.add ⟨3 / 10, rfl⟩ (((hoff.max hneg).mul 2).mul (7 / 10)))

theorem getWeights_nonneg (regime : MarketRegime) :
    0 ≤ (getWeights regime).momentum ∧ 0 ≤ (getWeights regime).meanReversion ∧
      0 ≤ (getWeights regime).whaleFollow := by
  cases regime <;> exact ⟨by norm_num [getWeights], by norm_num [getWeights],
    by norm_num [getWeights]⟩

/-- One signal in the sum of a direction. -/
theorem nonneg_consensus_step {sum : JsNumber} {s : StrategySignal} {w : ℚ} (c : Prop) [Decidable c]
    (hsum : ∃ q, sum = .finite q ∧ 0 ≤ q) (hs : ∃ q, s.confidence = .finite q ∧ 0 ≤ q)
    (hw : 0 ≤ w) :
    ∃ q, (if c then sum + s.confidence * .finite w else sum) = .finite q ∧ 0 ≤ q := by
  obtain ⟨p, rfl, hp⟩ := hsum
  obtain ⟨q, hq, hq0⟩ := hs
  split
  · rw [hq]
    exact ⟨p + q * w, rfl, add_nonneg hp (mul_nonneg hq0 hw)⟩
  · exact ⟨p, rfl, hp⟩

theorem nonneg_consensus {d : ScanData} (hd : d.AllFinite) (direction : SignalDirection)
    (market : MarketData) (regime : MarketRegime) :
    ∃ q, consensus direction (d.signals market) (getWeights regime) = .finite q ∧ 0 ≤ q := by
  obtain ⟨hm, hr, hw⟩ := getWeights_nonneg regime
  have hs := hd.confidences market
  have hzero : ∃ q, (0 : JsNumber) = .finite q ∧ 0 ≤ q := ⟨0, rfl, le_rfl⟩
  have hfirst := nonneg_consensus_step ((d.signals market).momentum.signal = direction) hzero
    (hs _ List.mem_cons_self) hm
  have hsecond := nonneg_consensus_step ((d.signals market).meanReversion.signal = direction) hfirst
    (hs _ (List.mem_cons_of_mem _ List.mem_cons_self)) hr
  exact nonneg_consensus_step ((d.signals market).whaleFollow.signal = direction) hsecond
    (hs _ (List.mem_cons_of_mem _ (List.mem_cons_of_mem _ List.mem_cons_self))) hw

/-- Finite data give finite scores. -/
theorem finite_totalScore {balance : JsNumber} {d : ScanData} {market : MarketData}
    {o : Opportunity} (hd : d.AllFinite) (ho : evaluateMarket balance d market = some o) :
    IsFinite o.totalScore := by
  simp only [evaluateMarket] at ho
  split at ho
  · cases ho
  · obtain rfl := Option.some.inj ho
    have hwhale : IsFinite (computeWhaleScore (d.signals market).whaleFollow) := by
      obtain ⟨q, hq, -⟩ := hd.confidences market (d.signals market).whaleFollow (by simp)
      unfold computeWhaleScore
      split
      · exact ⟨_, rfl⟩
      · exact .min ⟨1, rfl⟩ (.add ⟨3 / 10, rfl⟩ (.mul ⟨q, hq⟩ (7 / 10)))
    obtain ⟨p, hp, hp0⟩ := nonneg_consensus hd .bullish market
      ((d.regimes (toUpperCase market.symbol)).getD .RANGING)
    obtain ⟨q, hq, hq0⟩ := nonneg_consensus hd .bearish market
      ((d.regimes (toUpperCase market.symbol)).getD .RANGING)
    have hpositive : JsNumber.finite (p + q + 1 / 2) ≠ 0 := fun h => by
      have hsum : p + q + 1 / 2 = 0 := JsNumber.finite.inj h
      linarith
    have hconfidence : IsFinite
        (((JsNumber.finite p).max (.finite q)).div (.finite p + .finite q + .finite (1 / 2))) :=
      (IsFinite.max ⟨p, rfl⟩ ⟨q, rfl⟩).div ⟨p + q + 1 / 2, rfl⟩ hpositive
    rw [hp, hq]
    exact (((hconfidence.mul _).add ((finite_computeVolumeStrength hd.volumes).mul _)).add
      ((finite_computeOiScore hd market).mul _)).add (hwhale.mul _)

/-! ## What a scan gives -/

/-- The collateral of a finite balance is between $10 and $1000, and more than the balance only
where that is below $10. -/
theorem collateral_le {b multiplier : ℚ} (h₀ : 0 ≤ multiplier) (h₁ : multiplier ≤ 1) :
    ∃ c, collateral (.finite b) multiplier = .finite c ∧ 10 ≤ c ∧ c ≤ 1000 ∧ c ≤ max 10 b := by
  have hround : ((⌊b * (1 / 20) * multiplier + 1 / 2⌋ : ℤ) : ℚ) ≤ max 10 b := by
    refine (Int.floor_le _).trans ?_
    rcases le_total 0 b with hb | hb
    · have hshare : b * (1 / 20) * multiplier ≤ b * (1 / 20) :=
        mul_le_of_le_one_right (by linarith) h₁
      rcases le_total 10 b with hten | hten
      · exact le_max_of_le_right (by linarith)
      · exact le_max_of_le_left (by linarith)
    · have hshare : b * (1 / 20) * multiplier ≤ 0 :=
        mul_nonpos_of_nonpos_of_nonneg (by linarith) h₀
      exact le_max_of_le_left (by linarith)
  show ∃ c, JsNumber.min (.finite 1000) (if (JsNumber.finite 10).gt (.finite _) then .finite 10
    else .finite _) = .finite c ∧ _
  rw [JsNumber.gt_finite_finite]
  split
  · exact ⟨10, rfl, le_rfl, by norm_num, le_max_left _ _⟩
  · next hlow =>
    have hten := not_lt.mp (fun h => hlow (decide_eq_true h))
    show ∃ c, (if (JsNumber.finite 1000).gt (.finite _) then JsNumber.finite _ else .finite 1000)
      = .finite c ∧ _
    rw [JsNumber.gt_finite_finite]
    split
    · next hhigh => exact ⟨_, rfl, hten, (of_decide_eq_true hhigh).le, hround⟩
    · next hhigh =>
      have hcap := not_lt.mp (fun h => hhigh (decide_eq_true h))
      exact ⟨1000, rfl, by norm_num, le_rfl, hcap.trans hround⟩

theorem collateralMultiplier_le_one (regime : MarketRegime) :
    0 ≤ (getWeights regime).collateralMultiplier ∧
      (getWeights regime).collateralMultiplier ≤ 1 := by
  cases regime <;> exact ⟨by norm_num [getWeights], by norm_num [getWeights]⟩

theorem recommendedCollateral_eq {balance : JsNumber} {d : ScanData} {market : MarketData}
    {o : Opportunity} (ho : evaluateMarket balance d market = some o) :
    o.recommendedCollateral = collateral balance (getWeights o.regime).collateralMultiplier := by
  simp only [evaluateMarket] at ho
  split at ho
  · cases ho
  · obtain rfl := Option.some.inj ho
    rfl

theorem sliceTo_sublist {α : Type} (l : List α) (n : JsNumber) : (sliceTo l n).Sublist l := by
  cases n with
  | finite q => exact List.take_sublist _ _
  | posInfinity => exact List.Sublist.refl _
  | negInfinity => exact List.nil_sublist _
  | nan => exact List.nil_sublist _

theorem length_sliceTo_le {α : Type} (l : List α) {q : ℚ} (hq : 0 ≤ q) :
    ((sliceTo l (.finite q)).length : ℚ) ≤ q := by
  have hfloor : 0 ≤ ⌊q⌋ := Int.floor_nonneg.mpr hq
  have hlength : ((sliceTo l (.finite q)).length : ℤ) ≤ ⌊q⌋ := by
    simp only [sliceTo, if_pos hq]
    exact (Int.ofNat_le.mpr (List.length_take_le _ _)).trans (Int.toNat_of_nonneg hfloor).le
  exact_mod_cast (Int.cast_le.mpr hlength).trans (Int.floor_le q)

/-- By scores that are finite numbers the comparison orders. -/
theorem inOrder_iff {a b : Opportunity} {p q : ℚ} (ha : a.totalScore = .finite p)
    (hb : b.totalScore = .finite q) : inOrder a b ↔ q ≤ p := by
  unfold inOrder
  rw [ha, hb, JsNumber.finite_sub_finite]
  show (JsNumber.finite _).gt (.finite 0) = false ↔ _
  rw [JsNumber.gt_finite_finite, decide_eq_false_iff_not, not_lt, sub_nonpos]

/-- A list as a scan for a balance and a `topN` gives it. -/
structure Ranked (balance topN : JsNumber) (d : ScanData) (results : List Opportunity) : Prop where
  atMost : ∀ n : ℚ, topN = .finite n → 0 ≤ n → (results.length : ℚ) ≤ n
  sorted : d.AllFinite → results.Pairwise fun a b => b.totalScore.gt a.totalScore = false
  collateral : ∀ o ∈ results,
    o.recommendedCollateral = collateral balance (getWeights o.regime).collateralMultiplier
  limits : ∀ b : ℚ, balance = .finite b → ∀ o ∈ results, ∃ c,
    o.recommendedCollateral = .finite c ∧ 10 ≤ c ∧ c ≤ 1000 ∧ c ≤ max 10 b

theorem ranked_scanResults {balance topN : JsNumber} {d : ScanData} {results : List Opportunity}
    (h : scanResults balance topN d = some results) : Ranked balance topN d results := by
  simp only [scanResults] at h
  split at h
  · cases h
  · obtain rfl := Option.some.inj h
    generalize hopps : (d.markets.filter isValid).filterMap (evaluateMarket balance d) = opps
    have hopp : ∀ o ∈ opps, ∃ market, evaluateMarket balance d market = some o := by
      rw [← hopps]
      intro o ho
      obtain ⟨market, -, hmarket⟩ := List.mem_filterMap.mp ho
      exact ⟨market, hmarket⟩
    have hresult : ∀ o ∈ sliceTo (opps.insertionSort inOrder) topN, o ∈ opps := fun o ho =>
      (List.mem_insertionSort inOrder).mp ((sliceTo_sublist _ _).subset ho)
    have hcollateral : ∀ o ∈ sliceTo (opps.insertionSort inOrder) topN,
        o.recommendedCollateral
          = MarketScanner.collateral balance (getWeights o.regime).collateralMultiplier := by
      intro o ho
      obtain ⟨market, hmarket⟩ := hopp o (hresult o ho)
      exact recommendedCollateral_eq hmarket
    refine ⟨fun n hn h₀ => hn ▸ length_sliceTo_le _ h₀, fun hd => ?_, hcollateral,
      fun b hb o ho => ?_⟩
    · have hscore : ∀ o ∈ opps, IsFinite o.totalScore := fun o ho =>
        let ⟨_, hmarket⟩ := hopp o ho
        finite_totalScore hd hmarket
      have hsorted : (opps.insertionSort inOrder).Pairwise inOrder := by
        refine pairwise_insertionSort_of_mem (fun a ha b hb => ?_) fun a ha b hb c hc hab hbc => ?_
        · obtain ⟨p, hp⟩ := hscore a ha
          obtain ⟨q, hq⟩ := hscore b hb
          rw [inOrder_iff hp hq, inOrder_iff hq hp]
          exact le_total q p
        · obtain ⟨p, hp⟩ := hscore a ha
          obtain ⟨q, hq⟩ := hscore b hb
          obtain ⟨r, hr⟩ := hscore c hc
          rw [inOrder_iff hp hq] at hab
          rw [inOrder_iff hq hr] at hbc
          exact (inOrder_iff hp hr).mpr (hbc.trans hab)
      refine ((hsorted.sublist (sliceTo_sublist _ topN)).imp_of_mem fun ha hb hab => ?_)
      obtain ⟨p, hp⟩ := hscore _ (hresult _ ha)
      obtain ⟨q, hq⟩ := hscore _ (hresult _ hb)
      rw [inOrder_iff hp hq] at hab
      rw [hp, hq, JsNumber.gt_finite_finite]
      exact decide_eq_false (not_lt.mpr hab)
    · obtain ⟨h₀, h₁⟩ := collateralMultiplier_le_one o.regime
      rw [hcollateral o ho, hb]
      exact collateral_le h₀ h₁

/-- No results, or what a scan gives. -/
def FromCall (balance topN : JsNumber) (results : List Opportunity) : Prop :=
  results = [] ∨ ∃ d, scanResults balance topN d = some results ∧ Ranked balance topN d results

/-! ## Every run -/

/-- The list is for the arguments of that call. -/
def CallOf (h : List ScanEvent) (call : ℕ) (results : List Opportunity) : Prop :=
  ∃ balance topN, .called call balance topN ∈ h ∧ FromCall balance topN results

theorem CallOf.mono {h es : List ScanEvent} {call : ℕ} {results : List Opportunity}
    (hcall : CallOf h call results) : CallOf (h ++ es) call results := by
  obtain ⟨balance, topN, hmem, hfrom⟩ := hcall
  exact ⟨balance, topN, List.mem_append_left _ hmem, hfrom⟩

/-- What a call gets is for its own arguments or for those of an earlier call; for its own if it
started a scan that was not aborted. -/
def RightReturn (before : List ScanEvent) : ScanEvent → Prop
  | .returned call results => ∃ origin, CallOf before origin results ∧
      (.started call ∈ before → .aborted call ∉ before → origin = call)
  | _ => True

/-- What the fields of the scanner say about the past. -/
structure Kept (s : MarketScanner) (h : List ScanEvent) : Prop where
  returns : Each RightReturn h
  calls : ∀ call, .started call ∈ h → call < s.calls
  scans : ∀ id scan, s.scans.get? id = some scan → .called id scan.balance scan.topN ∈ h
  cached : ∀ results, s.cachedResults = some results → ∃ origin, CallOf h origin results
  settled : ∀ id results, s.settled.get? id = some results →
    ∃ origin, CallOf h origin results ∧ (.aborted id ∉ h → origin = id)
  waiting : ∀ call scan, s.waiting.get? call = some scan → .started call ∈ h → scan = call

section Runs

variable {s s' : MarketScanner} {h es : List ScanEvent}

/-- One event more, unless it is a start. -/
theorem Kept.snoc (hK : Kept s h) {e : ScanEvent} (he : RightReturn h e)
    (hstarted : ∀ call, .started call ≠ e) : Kept s (h ++ [e]) := by
  have hold : ∀ {call}, .started call ∈ h ++ [e] → .started call ∈ h := fun hmem =>
    (List.mem_append.mp hmem).resolve_right fun hlast =>
      hstarted _ (List.mem_singleton.mp hlast)
  exact
    { returns := hK.returns.snoc he
      calls := fun call hcall => hK.calls call (hold hcall)
      scans := fun id scan hscan => List.mem_append_left _ (hK.scans id scan hscan)
      cached := fun results hresults => by
        obtain ⟨origin, hcall⟩ := hK.cached results hresults
        exact ⟨origin, hcall.mono⟩
      settled := fun id results hresults => by
        obtain ⟨origin, hcall, hown⟩ := hK.settled id results hresults
        exact ⟨origin, hcall.mono, fun hno => hown fun hin => hno (List.mem_append_left _ hin)⟩
      waiting := fun call scan hwait hcall => hK.waiting call scan hwait (hold hcall) }

/-- A race is decided by results of the call that started the scan, or the scan is aborted. -/
theorem Kept.settle (hK : Kept s h) {id : ℕ} {racing : Bool} {results : List Opportunity}
    (hresults : racing = true →
      ∃ origin, CallOf h origin results ∧ (.aborted id ∉ h → origin = id)) :
    Kept (s.settle id racing results) h := by
  unfold MarketScanner.settle
  split
  · next hracing =>
    refine { hK with settled := fun id' results' hget => ?_ }
    rcases OrderedMap.get?_set_eq_some.mp hget with ⟨rfl, rfl⟩ | ⟨-, hold⟩
    · exact hresults hracing
    · exact hK.settled id' results' hold
  · exact hK

/-- What an aborted scan gives its callers. -/
theorem Kept.cachedOrEmpty (hK : Kept s h) {id : ℕ} {scan : Scan}
    (hscan : s.scans.get? id = some scan) : ∃ origin, CallOf h origin s.cachedOrEmpty := by
  unfold MarketScanner.cachedOrEmpty
  cases hcached : s.cachedResults with
  | none => exact ⟨id, scan.balance, scan.topN, hK.scans id scan hscan, .inl rfl⟩
  | some results => exact hK.cached results hcached

theorem Kept.deleteScan (hK : Kept s h) (id : ℕ) :
    Kept { s with scans := s.scans.delete id } h :=
  { hK with scans := fun id' scan hget =>
      hK.scans id' scan (OrderedMap.get?_delete_eq_some.mp hget).2 }

/-- The scan that the next call starts. -/
theorem Kept.start (hK : Kept s h) {balance topN : JsNumber}
    (hcalled : .called s.calls balance topN ∈ h) :
    Kept
      { s with
          calls := s.calls + 1
          scanInProgress := some s.calls
          scans := s.scans.set s.calls { balance, topN }
          waiting := s.waiting.set s.calls s.calls }
      (h ++ [.started s.calls]) where
  returns := hK.returns.snoc trivial
  calls call hcall := by
    rcases List.mem_append.mp hcall with hold | hlast
    · exact (hK.calls call hold).trans (Nat.lt_succ_self _)
    · obtain rfl := ScanEvent.started.inj (List.mem_singleton.mp hlast)
      exact Nat.lt_succ_self _
  scans id scan hget := by
    refine List.mem_append_left _ ?_
    rcases OrderedMap.get?_set_eq_some.mp hget with ⟨rfl, rfl⟩ | ⟨-, hold⟩
    · exact hcalled
    · exact hK.scans id scan hold
  cached results hresults := by
    obtain ⟨origin, hcall⟩ := hK.cached results hresults
    exact ⟨origin, hcall.mono⟩
  settled id results hresults := by
    obtain ⟨origin, hcall, hown⟩ := hK.settled id results hresults
    exact ⟨origin, hcall.mono, fun hno => hown fun hin => hno (List.mem_append_left _ hin)⟩
  waiting call scan hget hcall := by
    rcases OrderedMap.get?_set_eq_some.mp hget with ⟨rfl, rfl⟩ | ⟨hne, hold⟩
    · rfl
    · refine hK.waiting call scan hold ((List.mem_append.mp hcall).resolve_right fun hlast => ?_)
      exact hne (ScanEvent.started.inj (List.mem_singleton.mp hlast))

/-- A call returns the cache, joins the scan in progress or starts one. -/
theorem kept_call (hK : Kept s h) (now : ℚ) (balance topN : JsNumber) :
    Kept (s.call now balance topN).1 (h ++ (s.call now balance topN).2) := by
  have hcalled : Kept s (h ++ [.called s.calls balance topN]) :=
    hK.snoc trivial fun _ heq => by cases heq
  have hnew : .started s.calls ∉ h ++ [.called s.calls balance topN] := fun hmem =>
    absurd (hcalled.calls _ hmem) (lt_irrefl _)
  have hcounted : Kept { s with calls := s.calls + 1 } (h ++ [.called s.calls balance topN]) :=
    { hcalled with
      calls := fun call hcall => (hcalled.calls call hcall).trans (Nat.lt_succ_self _) }
  unfold MarketScanner.call
  dsimp only
  split
  · next results hcached =>
    obtain ⟨origin, horigin⟩ := hcounted.cached results (Option.filter_eq_some_iff.mp hcached).1
    have hright : RightReturn (h ++ [.called s.calls balance topN])
        (.returned s.calls results) := ⟨origin, horigin, fun hmem => absurd hmem hnew⟩
    rw [List.append_cons]
    exact hcounted.snoc hright fun _ heq => by cases heq
  · split
    · -- the scan in progress is another call's
      refine { hcounted with waiting := fun call scan hget hcall => ?_ }
      rcases OrderedMap.get?_set_eq_some.mp hget with ⟨rfl, -⟩ | ⟨-, hold⟩
      · exact absurd hcall hnew
      · exact hcounted.waiting call scan hold hcall
    · rw [List.append_cons]
      exact hcalled.start (List.mem_append_right _ List.mem_cons_self)

/-- The end of `doScan` fills the cache and decides the race with what the scan gives. -/
theorem kept_finish (hK : Kept s h) {id : ℕ} {scan : Scan} (hscan : s.scans.get? id = some scan)
    (d : ScanData) (now : ℚ) : Kept (s.finish id scan d now) h := by
  have hmem := hK.scans id scan hscan
  unfold MarketScanner.finish
  dsimp only
  split
  · exact (hK.deleteScan id).settle fun _ =>
      ⟨id, ⟨scan.balance, scan.topN, hmem, .inl rfl⟩, fun _ => rfl⟩
  · next results hresults =>
    have hcall : CallOf h id results :=
      ⟨scan.balance, scan.topN, hmem, .inr ⟨d, hresults, ranked_scanResults hresults⟩⟩
    have hcached : Kept
        { s with
            scans := s.scans.delete id
            cachedResults := some results
            cacheExpiry := now + SCAN_CACHE_TTL } h :=
      { hK.deleteScan id with
        cached := fun results' heq => by
          obtain rfl := Option.some.inj heq
          exact ⟨id, hcall⟩ }
    exact hcached.settle fun _ => ⟨id, hcall, fun _ => rfl⟩

/-- A scan that is aborted decides its race with the cache. -/
theorem kept_abort (hK : Kept s h) {id : ℕ} {scan : Scan} (hscan : s.scans.get? id = some scan)
    (hK' : Kept s' h) (racing : Bool) :
    Kept (s'.settle id racing s.cachedOrEmpty) (h ++ if racing then [.aborted id] else []) := by
  obtain ⟨origin, hcall⟩ := hK.cachedOrEmpty hscan
  cases racing with
  | false =>
    show Kept s' (h ++ [])
    rwa [List.append_nil]
  | true =>
    have haborted : Kept s' (h ++ [.aborted id]) := hK'.snoc trivial fun _ heq => by cases heq
    refine haborted.settle fun _ => ⟨origin, hcall.mono, fun hno => ?_⟩
    exact absurd (List.mem_append_right _ List.mem_cons_self) hno

theorem kept_resume (hK : Kept s h) {call scan : ℕ} {results : List Opportunity}
    (hwait : s.waiting.get? call = some scan) (hsettled : s.settled.get? scan = some results) :
    Kept (s.resume call scan) (h ++ [.returned call results]) := by
  obtain ⟨origin, hcall, hown⟩ := hK.settled scan results hsettled
  have hright : RightReturn h (.returned call results) := by
    refine ⟨origin, hcall, fun hstarted hno => ?_⟩
    obtain rfl := hK.waiting call scan hwait hstarted
    exact hown hno
  have hresumed : Kept (s.resume call scan) h :=
    { hK with waiting := fun call' scan' hget =>
        hK.waiting call' scan' (OrderedMap.get?_delete_eq_some.mp hget).2 }
  exact hresumed.snoc hright fun _ heq => by cases heq

/-- Every step keeps it. -/
theorem kept_step (hK : Kept s h) {a : ScanAction} (hs : s.step a = some (s', es)) :
    Kept s' (h ++ es) := by
  cases a with
  | call now balance topN =>
    obtain ⟨rfl, rfl⟩ := Machine.some_pair hs
    exact kept_call hK now balance topN
  | data id d now =>
    obtain ⟨scan, hscan, heq⟩ := Option.map_eq_some_iff.mp hs
    obtain ⟨rfl, rfl⟩ := Prod.mk.inj heq
    rw [List.append_nil]
    exact kept_finish hK hscan d now
  | fails id =>
    obtain ⟨scan, hscan, heq⟩ := Option.map_eq_some_iff.mp hs
    obtain ⟨rfl, rfl⟩ := Prod.mk.inj heq
    exact kept_abort hK hscan (hK.deleteScan id) scan.racing
  | timeout id =>
    obtain ⟨scan, hracing, heq⟩ := Option.map_eq_some_iff.mp hs
    obtain ⟨rfl, rfl⟩ := Prod.mk.inj heq
    have hscan := (Option.filter_eq_some_iff.mp hracing).1
    have htimedOut : Kept { s with scans := s.scans.set id { scan with racing := false } } h := by
      refine { hK with scans := fun id' scan' hget => ?_ }
      rcases OrderedMap.get?_set_eq_some.mp hget with ⟨rfl, rfl⟩ | ⟨-, hold⟩
      · exact hK.scans _ scan hscan
      · exact hK.scans id' scan' hold
    exact kept_abort hK hscan htimedOut true
  | resumes call =>
    obtain ⟨scan, hwait, hrest⟩ := Option.bind_eq_some_iff.mp hs
    obtain ⟨results, hsettled, heq⟩ := Option.map_eq_some_iff.mp hrest
    obtain ⟨rfl, rfl⟩ := Prod.mk.inj heq
    exact kept_resume hK hwait hsettled
  | clearCache =>
    obtain ⟨rfl, rfl⟩ := Machine.some_pair hs
    rw [List.append_nil]
    exact { hK with cached := fun _ heq => by cases heq }

end Runs

/-- What would hold of a return if every call got a list for its own arguments. -/
def OwnReturn (before : List ScanEvent) : ScanEvent → Prop
  | .returned call results => ∀ b n : ℚ, .called call (.finite b) (.finite n) ∈ before →
      (results.length : ℚ) ≤ n ∧
        ∀ o ∈ results, ∃ c, o.recommendedCollateral = .finite c ∧ c ≤ b
  | _ => True

def neutral : StrategySignal := ⟨.neutral, .finite (3 / 10)⟩

def twoMarkets : ScanData where
  markets := [⟨"SOL", .finite 150⟩, ⟨"BTC", .finite 60000⟩]
  dailyVolumes := []
  openInterest := []
  signals := fun _ => ⟨⟨.bullish, .finite (8 / 10)⟩, neutral, neutral⟩
  regimes := fun _ => none

/-- What the first call gets. -/
def firstResults : List Opportunity :=
  (scanResults (.finite 100000) (.finite 10) twoMarkets).getD []

/-- A call that finds the cache fresh. -/
theorem call_cached {s : MarketScanner} {now : ℚ} {balance topN : JsNumber}
    {results : List Opportunity} (hcached : s.cachedResults = some results)
    (hfresh : now < s.cacheExpiry) :
    s.call now balance topN = ({ s with calls := s.calls + 1 },
      [.called s.calls balance topN, .returned s.calls results]) := by
  simp [MarketScanner.call, hcached, hfresh, Option.filter]

end MarketScanner

end FlashEdge
