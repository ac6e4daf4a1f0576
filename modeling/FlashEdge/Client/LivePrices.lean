import FlashEdge.Client.SimulationLedger
import FlashEdge.Data.PriceService

/-!
# The prices the paper-trading client trades at

Every operation that refreshes prices asks the client's own price service for all markets,
then the positions of the statistics service for those that have no price yet. `PricedClient`
is the client with its price service and the breaker, which other price services use too.

`live_cases`: after a refresh the price of a market was fetched by it, or is the one that was
held before; which of the two, is decided by the state before the refresh and the answers
(`Fetches`, `held`).
-/

namespace FlashEdge

open SimulatedFlashClient PriceService

/-- What the two sources answer to one refresh. -/
structure FetchAnswers extends PriceAnswer where
  openPositions : Option (List RawOpenPosition)

/-- The client, its price service and the breaker of that service. -/
structure PricedClient where
  client : SimulatedFlashClient
  priceService : PriceService := {}
  breaker : ServiceCircuitBreaker := { config := PriceService.breakerConfig }

namespace PricedClient

/-! ## A refresh -/

/-- The map of the price service, as the client reads it. -/
def feedOf (prices : OrderedMap String PriceService.TokenPrice) :
    List (String × SimulatedFlashClient.TokenPrice) :=
  prices.entries.map fun e =>
    (e.1, { price := .finite e.2.price.1, priceChange24h := e.2.priceChange24h })

/-- The average of a market's prices. -/
def average (prices : List ℚ) : ℚ := prices.sum / prices.length

/-- A market without a price; one of zero counts as none. -/
def Gap (price : Option ℚ) : Prop := price.getD 0 = 0

instance (price : Option ℚ) : Decidable (Gap price) := inferInstanceAs (Decidable (_ = _))

/-- More than a tenth off the last primary price. -/
def TooFar (lastKnown : Option ℚ) (avg : ℚ) : Prop :=
  ∃ last ∈ lastKnown, 0 < last ∧ 1 / 10 < |avg - last| / last

instance (lastKnown : Option ℚ) (avg : ℚ) : Decidable (TooFar lastKnown avg) :=
  match lastKnown with
  | none => isFalse fun ⟨_, hl, _⟩ => Option.not_mem_none _ hl
  | some last =>
    decidable_of_iff (0 < last ∧ 1 / 10 < |avg - last| / last)
      ⟨fun h => ⟨last, rfl, h⟩, fun ⟨_, hl, h⟩ => Option.some.inj hl ▸ h⟩

/-- The price that the secondary source writes for one market. -/
def filled? (s : SimulatedFlashClient) (e : String × List ℚ) : Option (String × ℚ) :=
  if Gap (s.livePrices.get? e.1) ∧ ¬ TooFar (s.lastPrimaryPrices.get? e.1) (average e.2) then
    some (e.1, average e.2)
  else none

variable (symbols : List String) (σ : PricedClient) (a : FetchAnswers)

/-- What the price service leaves and gives. -/
def priceResult : PriceResult :=
  σ.priceService.getPrices σ.breaker symbols a.toPriceAnswer

/-- The client when the primary source has been read. -/
def afterPrimary : SimulatedFlashClient :=
  σ.client.refreshPrices { primary := some (feedOf (σ.priceResult symbols a).prices)
                           secondary := none }

/-- What the client reads of the two sources. -/
def feed : PriceFeed :=
  { primary := some (feedOf (σ.priceResult symbols a).prices), secondary := a.openPositions }

/-- The prices that the two requests of a refresh have obtained. -/
def fetched : List (String × ℚ) :=
  (σ.priceResult symbols a).answered.map (fun tp => (tp.symbol, tp.price.1)) ++
    ((a.openPositions.map secondaryPrices).getD .empty).entries.filterMap
      (filled? (σ.afterPrimary symbols a))

/-- `refreshPrices`. -/
def refresh : PricedClient :=
  { client := σ.client.refreshPrices (σ.feed symbols a)
    priceService := (σ.priceResult symbols a).service
    breaker := (σ.priceResult symbols a).breaker }

/-! ## What is held, and what is fetched -/

/-- The price a market has without a fetch: what the service keeps, and otherwise the live
price, unless it is dropped. -/
def held (market : String) : Option ℚ :=
  ((σ.priceService.kept symbols a.now market).map fun tp => tp.price.1).or
    (σ.client.boundLivePrices.livePrices.get? market)

/-- The secondary source has a price for the market that is near enough. -/
def Fills (market : String) : Prop :=
  ∃ positions ∈ a.openPositions, ∃ prices ∈ (secondaryPrices positions).get? market,
    ¬ TooFar (σ.client.lastPrimaryPrices.get? market) (average prices)

/-- The refresh fetches a price of the market: from the primary source, or from the
secondary one where there is none. -/
def Fetches (market : String) : Prop :=
  σ.priceService.Renews σ.breaker symbols a.toPriceAnswer market ∨
    (Gap (σ.held symbols a market) ∧ σ.Fills a market)

/-! ## The primary source -/

theorem boundLivePrices_lastPrimaryPrices (s : SimulatedFlashClient) :
    s.boundLivePrices.lastPrimaryPrices = s.lastPrimaryPrices := by
  unfold boundLivePrices
  split <;> rfl

theorem takePrimaryPrice_positive (s : SimulatedFlashClient) (sym : String) (price : Price)
    (priceChange24h : ℚ) :
    (s.takePrimaryPrice sym { price := .finite price.1, priceChange24h }).livePrices =
        s.livePrices.set sym price.1 ∧
      (s.takePrimaryPrice sym { price := .finite price.1, priceChange24h }).lastPrimaryPrices =
        s.lastPrimaryPrices.set sym price.1 := by
  have hpos : JsNumber.finitePositive? (.finite price.1) = some price.1 := if_pos price.2
  unfold takePrimaryPrice
  rw [hpos]
  dsimp only
  split
  · exact ⟨rfl, rfl⟩
  · exact ⟨rfl, rfl⟩

/-- The prices of the service are written one after another. -/
theorem foldl_takePrimaryPrice (l : List (String × PriceService.TokenPrice))
    (s : SimulatedFlashClient) :
    ((l.map fun e => (e.1, ({ price := .finite e.2.price.1, priceChange24h := e.2.priceChange24h } :
        SimulatedFlashClient.TokenPrice))).foldl (fun s p => s.takePrimaryPrice p.1 p.2)
          s).livePrices = l.foldl (fun m e => m.set e.1 e.2.price.1) s.livePrices ∧
      ((l.map fun e => (e.1, ({ price := .finite e.2.price.1
                                priceChange24h := e.2.priceChange24h } :
        SimulatedFlashClient.TokenPrice))).foldl (fun s p => s.takePrimaryPrice p.1 p.2)
          s).lastPrimaryPrices = l.foldl (fun m e => m.set e.1 e.2.price.1) s.lastPrimaryPrices := by
  induction l generalizing s with
  | nil => exact ⟨rfl, rfl⟩
  | cons e l ih =>
    obtain ⟨hlive, hlast⟩ := takePrimaryPrice_positive s e.1 e.2.price e.2.priceChange24h
    rw [List.map_cons, List.foldl_cons, List.foldl_cons, List.foldl_cons, ← hlive, ← hlast]
    exact ih _

/-- The entries of a map, written into another. -/
theorem get?_foldl_entries (prices : OrderedMap String PriceService.TokenPrice)
    (m : OrderedMap String ℚ) (market : String) :
    (prices.entries.foldl (fun m e => m.set e.1 e.2.price.1) m).get? market =
      ((prices.get? market).map fun tp => tp.price.1).or (m.get? market) := by
  rcases OrderedMap.get?_foldl_set (fun e : String × PriceService.TokenPrice => e.1)
    (fun e => e.2.price.1) prices.entries m market with ⟨e, he, rfl, hfound⟩ | ⟨hnone, hfound⟩
  · rw [hfound, OrderedMap.get?_eq_some_iff.mpr (show (e.1, e.2) ∈ prices.entries from he)]
    rfl
  · have hno : prices.get? market = none := by
      cases htp : prices.get? market with
      | none => rfl
      | some tp => exact absurd rfl (hnone (market, tp) (OrderedMap.get?_eq_some_iff.mp htp))
    rw [hfound, hno]
    rfl

variable {symbols : List String} {σ : PricedClient} {a : FetchAnswers}

theorem get?_afterPrimary (symbols : List String) (σ : PricedClient) (a : FetchAnswers)
    (market : String) :
    (σ.afterPrimary symbols a).livePrices.get? market =
        (((σ.priceResult symbols a).prices.get? market).map fun tp => tp.price.1).or
          (σ.client.boundLivePrices.livePrices.get? market) ∧
      (σ.afterPrimary symbols a).lastPrimaryPrices.get? market =
        (((σ.priceResult symbols a).prices.get? market).map fun tp => tp.price.1).or
          (σ.client.lastPrimaryPrices.get? market) := by
  obtain ⟨hlive, hlast⟩ :=
    foldl_takePrimaryPrice (σ.priceResult symbols a).prices.entries σ.client.boundLivePrices
  unfold afterPrimary refreshPrices feedOf
  dsimp only
  rw [hlive, hlast, get?_foldl_entries, get?_foldl_entries, boundLivePrices_lastPrimaryPrices]
  exact ⟨rfl, rfl⟩

/-! ## The secondary source -/

theorem fillGap_eq (s : SimulatedFlashClient) (sym : String) (avg : ℚ) :
    takeSecondaryPrice.fillGap s sym avg =
      if TooFar (s.lastPrimaryPrices.get? sym) avg then s
      else { s with livePrices := s.livePrices.set sym avg } := by
  unfold takeSecondaryPrice.fillGap
  cases hlast : s.lastPrimaryPrices.get? sym with
  | none =>
    have hnear : ¬ TooFar none avg := fun ⟨_, hl, _⟩ => Option.not_mem_none _ hl
    rw [if_neg hnear]
  | some last =>
    have hfar : TooFar (some last) avg ↔ 0 < last ∧ 1 / 10 < |avg - last| / last :=
      ⟨fun ⟨_, hl, h⟩ => Option.some.inj hl ▸ h, fun h => ⟨last, rfl, h⟩⟩
    dsimp only
    exact (if_congr hfar rfl rfl).symm

/-- One market of the secondary source. -/
theorem takeSecondaryPrice_eq (s : SimulatedFlashClient) (e : String × List ℚ) :
    s.takeSecondaryPrice e.1 e.2 =
      match filled? s e with
      | some fill => { s with livePrices := s.livePrices.set fill.1 fill.2 }
      | none => s := by
  have htake : s.takeSecondaryPrice e.1 e.2 =
      if Gap (s.livePrices.get? e.1) then takeSecondaryPrice.fillGap s e.1 (average e.2) else s := by
    unfold takeSecondaryPrice
    cases s.livePrices.get? e.1 with
    | none => rfl
    | some existing => rfl
  rw [htake, fillGap_eq]
  unfold filled?
  by_cases hgap : Gap (s.livePrices.get? e.1)
  · by_cases hfar : TooFar (s.lastPrimaryPrices.get? e.1) (average e.2)
    · rw [if_pos hgap, if_pos hfar, if_neg fun h => h.2 hfar]
    · rw [if_pos hgap, if_neg hfar, if_pos ⟨hgap, hfar⟩]
  · rw [if_neg hgap, if_neg fun h => hgap h.1]

/-- A market is filled under its own name. -/
theorem filled?_market {s : SimulatedFlashClient} {e : String × List ℚ} {fill : String × ℚ}
    (h : filled? s e = some fill) : fill.1 = e.1 := by
  unfold filled? at h
  split at h
  · obtain rfl := Option.some.inj h
    rfl
  · cases h

/-- The other markets keep their price, and so does the last price of the primary source. -/
theorem takeSecondaryPrice_frame (s : SimulatedFlashClient) (e : String × List ℚ)
    {market : String} (hne : market ≠ e.1) :
    (s.takeSecondaryPrice e.1 e.2).livePrices.get? market = s.livePrices.get? market ∧
      (s.takeSecondaryPrice e.1 e.2).lastPrimaryPrices = s.lastPrimaryPrices := by
  rw [takeSecondaryPrice_eq]
  cases hfill : filled? s e with
  | none => exact ⟨rfl, rfl⟩
  | some fill =>
    refine ⟨?_, rfl⟩
    rw [← filled?_market hfill] at hne
    exact OrderedMap.get?_set_of_ne hne

theorem filled?_congr {s s' : SimulatedFlashClient} {market : String} {prices : List ℚ}
    (hlive : s'.livePrices.get? market = s.livePrices.get? market)
    (hlast : s'.lastPrimaryPrices = s.lastPrimaryPrices) :
    filled? s' (market, prices) = filled? s (market, prices) := by
  unfold filled?
  rw [hlive, hlast]

/-- A market that the source does not name keeps its price. -/
theorem foldl_takeSecondaryPrice_other {market : String} (l : List (String × List ℚ))
    (hno : market ∉ l.map Prod.fst) (s : SimulatedFlashClient) :
    (l.foldl (fun s p => s.takeSecondaryPrice p.1 p.2) s).livePrices.get? market =
      s.livePrices.get? market := by
  induction l generalizing s with
  | nil => rfl
  | cons e l ih =>
    rw [List.map_cons, List.mem_cons, not_or] at hno
    rw [List.foldl_cons, ih hno.2]
    exact (takeSecondaryPrice_frame s e hno.1).1

/-- A market that the source names is filled as if it were the only one. -/
theorem foldl_takeSecondaryPrice_own {market : String} {prices : List ℚ}
    (l : List (String × List ℚ)) (hnodup : (l.map Prod.fst).Nodup) (hmem : (market, prices) ∈ l)
    (s : SimulatedFlashClient) :
    (l.foldl (fun s p => s.takeSecondaryPrice p.1 p.2) s).livePrices.get? market =
      ((filled? s (market, prices)).map Prod.snd).or (s.livePrices.get? market) := by
  induction l generalizing s with
  | nil => cases hmem
  | cons e l ih =>
    rw [List.map_cons, List.nodup_cons] at hnodup
    rw [List.foldl_cons]
    rcases List.mem_cons.mp hmem with rfl | hmem
    · rw [foldl_takeSecondaryPrice_other l hnodup.1]
      rw [takeSecondaryPrice_eq]
      cases hfill : filled? s (market, prices) with
      | none => rfl
      | some fill =>
        obtain rfl : fill.1 = market := filled?_market hfill
        exact OrderedMap.get?_set_self _ _ _
    · have hne : market ≠ e.1 := by
        rintro rfl
        exact hnodup.1 (List.mem_map.mpr ⟨_, hmem, rfl⟩)
      obtain ⟨hlive, hlast⟩ := takeSecondaryPrice_frame s e hne
      rw [ih hnodup.2 hmem, filled?_congr hlive hlast, hlive]

/-- After both sources the price of a market is the one it is filled with, or the one of
before. -/
theorem get?_refresh (market : String) :
    (σ.refresh symbols a).client.livePrices.get? market =
      (((((a.openPositions.map secondaryPrices).getD .empty).get? market).bind fun prices =>
        filled? (σ.afterPrimary symbols a) (market, prices)).map Prod.snd).or
          ((σ.afterPrimary symbols a).livePrices.get? market) := by
  have hclient : (σ.refresh symbols a).client =
      ((a.openPositions.map secondaryPrices).getD .empty).entries.foldl
        (fun s p => s.takeSecondaryPrice p.1 p.2) (σ.afterPrimary symbols a) := by
    show σ.client.refreshPrices (σ.feed symbols a) = _
    unfold feed afterPrimary refreshPrices
    cases a.openPositions <;> rfl
  rw [hclient]
  generalize (a.openPositions.map secondaryPrices).getD .empty = m
  cases hm : m.get? market with
  | none =>
    exact foldl_takeSecondaryPrice_other _ (OrderedMap.get?_eq_none_iff.mp hm) _
  | some prices =>
    exact foldl_takeSecondaryPrice_own _ m.nodup (OrderedMap.get?_eq_some_iff.mp hm) _

/-! ## The price of a market after a refresh -/

/-- What the secondary source says, by market. -/
theorem fills_iff (market : String) :
    σ.Fills a market ↔
      ∃ prices, ((a.openPositions.map secondaryPrices).getD .empty).get? market = some prices ∧
        ¬ TooFar (σ.client.lastPrimaryPrices.get? market) (average prices) := by
  unfold Fills
  cases a.openPositions with
  | none =>
    constructor
    · rintro ⟨positions, hpositions, -⟩
      cases hpositions
    · rintro ⟨prices, hprices, -⟩
      cases hprices
  | some positions =>
    constructor
    · rintro ⟨_, hsame, prices, hprices, hnear⟩
      obtain rfl := Option.some.inj hsame
      exact ⟨prices, hprices, hnear⟩
    · rintro ⟨prices, hprices, hnear⟩
      exact ⟨positions, rfl, prices, hprices, hnear⟩

/-- A market with a gap has nothing kept by the service. -/
theorem kept_of_gap {market : String} (hgap : Gap (σ.held symbols a market)) :
    σ.priceService.kept symbols a.now market = none := by
  cases hkept : σ.priceService.kept symbols a.now market with
  | none => rfl
  | some tp =>
    unfold held Gap at hgap
    rw [hkept, Option.map_some, Option.some_or, Option.getD_some] at hgap
    exact absurd hgap tp.price.2.ne'

/-- A market that the primary source leaves out is filled where there is a gap. -/
theorem filled?_iff {market : String}
    (hkept : (σ.priceResult symbols a).prices.get? market =
      σ.priceService.kept symbols a.now market) (prices : List ℚ) (fill : String × ℚ) :
    filled? (σ.afterPrimary symbols a) (market, prices) = some fill ↔
      Gap (σ.held symbols a market) ∧
        ¬ TooFar (σ.client.lastPrimaryPrices.get? market) (average prices) ∧
          (market, average prices) = fill := by
  obtain ⟨hlive, hlast⟩ := get?_afterPrimary symbols σ a market
  rw [hkept] at hlive hlast
  have hheld : (σ.afterPrimary symbols a).livePrices.get? market = σ.held symbols a market := hlive
  unfold filled?
  rw [hheld]
  dsimp only
  by_cases hgap : Gap (σ.held symbols a market)
  · rw [kept_of_gap hgap, Option.map_none, Option.none_or] at hlast
    rw [hlast]
    by_cases hfar : TooFar (σ.client.lastPrimaryPrices.get? market) (average prices)
    · rw [if_neg fun h => h.2 hfar]
      exact ⟨fun h => (by cases h), fun h => absurd hfar h.2.1⟩
    · rw [if_pos ⟨hgap, hfar⟩]
      exact ⟨fun h => ⟨hgap, hfar, Option.some.inj h⟩, fun h => congrArg some h.2.2⟩
  · rw [if_neg fun h => hgap h.1]
    exact ⟨fun h => (by cases h), fun h => absurd h.1 hgap⟩

/-- **Fetched or held**: after a refresh the price of a market is one that it has fetched, or
the one that was held, and then it has fetched none. -/
theorem live_cases (symbols : List String) (σ : PricedClient) (a : FetchAnswers)
    (market : String) :
    (σ.Fetches symbols a market ∧
      ∃ price, (σ.refresh symbols a).client.livePrices.get? market = some price ∧
        (market, price) ∈ σ.fetched symbols a) ∨
    (¬ σ.Fetches symbols a market ∧
      (σ.refresh symbols a).client.livePrices.get? market = σ.held symbols a market ∧
        ∀ price, (market, price) ∉ σ.fetched symbols a) := by
  obtain ⟨hlive, -⟩ := get?_afterPrimary symbols σ a market
  rw [get?_refresh]
  rcases get?_getPrices σ.priceService σ.breaker symbols a.toPriceAnswer market with
    ⟨tp, htp, rfl, hfound⟩ | ⟨hnone, hkept⟩
  · -- the answer gives a price, which leaves no gap
    have hprice : (σ.afterPrimary symbols a).livePrices.get? tp.symbol = some tp.price.1 := by
      rw [hlive, show (σ.priceResult symbols a).prices.get? tp.symbol = some tp from hfound]
      rfl
    have hfull : ∀ prices, filled? (σ.afterPrimary symbols a) (tp.symbol, prices) = none := by
      intro prices
      refine if_neg fun h => ?_
      rw [hprice] at h
      exact tp.price.2.ne' h.1
    refine .inl ⟨.inl (price_answered_iff.mp ⟨tp, htp, rfl⟩), tp.price.1, ?_, ?_⟩
    · rw [hprice]
      cases ((a.openPositions.map secondaryPrices).getD .empty).get? tp.symbol with
      | none => rfl
      | some prices => rw [Option.bind_some, hfull]; rfl
    · exact List.mem_append_left _ (List.mem_map.mpr ⟨tp, htp, rfl⟩)
  · rw [show (σ.priceResult symbols a).prices.get? market = _ from hkept] at hlive
    have hrenews : ¬ σ.priceService.Renews σ.breaker symbols a.toPriceAnswer market := by
      intro hrenews
      obtain ⟨tp, htp, hsame⟩ := price_answered_iff.mpr hrenews
      exact hnone tp htp hsame
    by_cases hfills : Gap (σ.held symbols a market) ∧ σ.Fills a market
    · obtain ⟨hgap, hfill⟩ := hfills
      obtain ⟨prices, hprices, hnear⟩ := (fills_iff market).mp hfill
      have hfilled := (filled?_iff hkept prices (market, average prices)).mpr ⟨hgap, hnear, rfl⟩
      refine .inl ⟨.inr ⟨hgap, hfill⟩, average prices, ?_, ?_⟩
      · rw [hprices, Option.bind_some, hfilled]
        rfl
      · exact List.mem_append_right _ (List.mem_filterMap.mpr
          ⟨(market, prices), OrderedMap.get?_eq_some_iff.mp hprices, hfilled⟩)
    · have hempty : ∀ prices fill,
          ((a.openPositions.map secondaryPrices).getD .empty).get? market = some prices →
            filled? (σ.afterPrimary symbols a) (market, prices) ≠ some fill := by
        intro prices fill hprices hfilled
        obtain ⟨hgap, hnear, -⟩ := (filled?_iff hkept prices fill).mp hfilled
        exact hfills ⟨hgap, (fills_iff market).mpr ⟨prices, hprices, hnear⟩⟩
      refine .inr ⟨fun hfetches => hfetches.elim hrenews hfills, ?_, ?_⟩
      · rw [hlive]
        cases hm : ((a.openPositions.map secondaryPrices).getD .empty).get? market with
        | none => rfl
        | some prices =>
          cases hfilled : filled? (σ.afterPrimary symbols a) (market, prices) with
          | none => rw [Option.bind_some, hfilled]; rfl
          | some fill => exact absurd hfilled (hempty prices fill hm)
      · intro price hmem
        rcases List.mem_append.mp hmem with hmem | hmem
        · obtain ⟨tp, htp, hsame⟩ := List.mem_map.mp hmem
          exact hnone tp htp (Prod.mk.inj hsame).1
        · obtain ⟨e, he, hfilled⟩ := List.mem_filterMap.mp hmem
          obtain rfl : market = e.1 := filled?_market hfilled
          exact hempty e.2 _ (OrderedMap.get?_eq_some_iff.mpr he) hfilled

end PricedClient

end FlashEdge
