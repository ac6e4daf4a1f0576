import FlashEdge.Data.PriceService
import FlashEdge.Theory.Machine

/-!
# Prices that deviate

The price service refuses a price that is more than half off the cached one, and counts: "3+
consecutive prices are rejected" means a real move. What it counts are the entries of an answer
and not fetches; a fetch that brings no price does not start the count again; and a cached
price that is evicted leaves nothing to compare with.

- `market_getPrices`: what a call does to the count of one market, and which price it takes.
- `gated`: the count and the price taken follow from how many prices in a row deviate.
- `confirmed_iff`: along a run every price served that deviates comes after two fetches in a row
  that brought such prices, exactly when no fetch lets one through early.
-/

namespace FlashEdge

open PriceService

namespace PriceService

/-- More than half off a price. -/
def deviatesFrom (base price : Price) : Prop :=
  1 / 2 < |price.1 - base.1| / base.1

instance (base price : Price) : Decidable (deviatesFrom base price) :=
  inferInstanceAs (Decidable (_ < _))

theorem not_deviatesFrom_self (base : Price) : ¬ deviatesFrom base base := by
  unfold deviatesFrom
  rw [sub_self, abs_zero, zero_div]
  norm_num

/-! ## One market of an answer -/

/-- What a price that is offered does to the count of its market and to the price taken. -/
def gate (cached : Option CachedPrice) (r : ℕ × Option Price) (price : Price) :
    ℕ × Option Price :=
  match cached with
  | some c =>
    if deviates c price then
      if 3 ≤ r.1 + 1 then (0, some price) else (r.1 + 1, r.2)
    else (0, some price)
  | none => (r.1, some price)

/-- The price of a market that is taken. -/
def taken (tps : List TokenPrice) (sym : String) : Option Price :=
  (latest tps sym).map TokenPrice.price

/-- What an answer has done so far to one market. -/
def market (r : PriceService × List TokenPrice) (sym : String) : ℕ × Option Price :=
  (r.1.rejectCount sym, taken r.2 sym)

theorem taken_append_self (tps : List TokenPrice) {tp : TokenPrice} {sym : String}
    (h : tp.symbol = sym) : taken (tps ++ [tp]) sym = some tp.price := by
  unfold taken latest
  rw [List.reverse_concat, List.find?_cons, decide_eq_true h]
  rfl

theorem taken_append_of_ne (tps : List TokenPrice) {tp : TokenPrice} {sym : String}
    (h : tp.symbol ≠ sym) : taken (tps ++ [tp]) sym = taken tps sym := by
  unfold taken latest
  rw [List.reverse_concat, List.find?_cons, decide_eq_false h]

/-- The gate is what a price is checked with. -/
theorem gate_checkDeviation (s : PriceService) (sym : String) (price : Price)
    (last : Option Price) :
    gate (s.cache.get? sym) (s.rejectCount sym, last) price =
      ((s.checkDeviation sym price).1.rejectCount sym,
        if (s.checkDeviation sym price).2 = true then some price else last) := by
  have hset : ∀ n, rejectCount { s with
      deviationRejectCount := s.deviationRejectCount.set sym n } sym = n := by
    intro n
    unfold rejectCount
    rw [OrderedMap.get?_set_self, Option.getD_some]
  unfold gate checkDeviation
  cases s.cache.get? sym with
  | none => rfl
  | some c =>
    dsimp only
    split
    · split
      · rw [hset, if_pos rfl]
      · rw [hset, if_neg Bool.false_ne_true]
    · rw [hset, if_pos rfl]

/-- The prices of an answer that are looked at for a market. -/
def offers (symbols : List String) (entries : List (String × ApiPrice)) (sym : String) :
    List Price :=
  if sym ∈ symbols then offered entries sym else []

theorem offers_append (symbols : List String) (entries : List (String × ApiPrice))
    (e : String × ApiPrice) (sym : String) :
    offers symbols (entries ++ [e]) sym = offers symbols entries sym ++ offers symbols [e] sym := by
  unfold offers offered
  split
  · exact List.filterMap_append
  · rfl

/-- An entry goes through the gate of its market. -/
theorem market_takeEntry (symbols : List String) (a : PriceAnswer) (sym : String)
    (r : PriceService × List TokenPrice) (e : String × ApiPrice) :
    market (takeEntry symbols a r e) sym =
      (offers symbols [e] sym).foldl (gate (r.1.cache.get? sym)) (market r sym) := by
  unfold takeEntry offers offered
  dsimp only
  by_cases hkey : toUpperCase e.1 = sym
  · rw [hkey, List.filterMap_cons, if_pos hkey, List.filterMap_nil]
    by_cases hmem : sym ∈ symbols
    · rw [if_pos hmem, if_pos (List.contains_iff_mem.mpr hmem)]
      cases positive? e.2.value with
      | none => rfl
      | some price =>
        dsimp only
        rw [List.foldl_cons, List.foldl_nil]
        show _ = gate _ (_, taken r.2 sym) price
        rw [gate_checkDeviation, ← Prod.eta (r.1.checkDeviation sym price)]
        cases (r.1.checkDeviation sym price).2 with
        | true => exact Prod.ext rfl (taken_append_self r.2 rfl)
        | false => rfl
    · rw [if_neg hmem, if_neg fun h => hmem (List.contains_iff_mem.mp h)]
      rfl
  · have hother : (if sym ∈ symbols then
        List.filterMap (fun e => if toUpperCase e.1 = sym then positive? e.2.value else none) [e]
        else []) = [] := by
      rw [List.filterMap_cons, if_neg hkey, List.filterMap_nil, ite_self]
    rw [hother, List.foldl_nil]
    split
    · cases positive? e.2.value with
      | none => rfl
      | some price =>
        dsimp only
        have hcount := checkDeviation_rejectCount r.1 price (Ne.symm hkey)
        rw [← Prod.eta (r.1.checkDeviation (toUpperCase e.1) price)]
        cases (r.1.checkDeviation (toUpperCase e.1) price).2 with
        | true => exact Prod.ext hcount (taken_append_of_ne r.2 hkey)
        | false => exact Prod.ext hcount rfl
    · rfl

/-- So do all the entries, one after another. -/
theorem market_foldl_takeEntry (symbols : List String) (a : PriceAnswer) (sym : String)
    (entries : List (String × ApiPrice)) (r : PriceService × List TokenPrice) :
    market (entries.foldl (takeEntry symbols a) r) sym =
      (offers symbols entries sym).foldl (gate (r.1.cache.get? sym)) (market r sym) := by
  induction entries using List.reverseRecOn with
  | nil =>
    unfold offers offered
    rw [List.filterMap_nil, ite_self]
    rfl
  | append_singleton entries e ih =>
    rw [List.foldl_append, List.foldl_cons, List.foldl_nil, market_takeEntry,
      foldl_takeEntry_cache, ih, offers_append, List.foldl_append]

/-! ## How many in a row -/

/-- How many prices in a row deviate up to the last one, counted on from `n`. -/
def inARow (base : Price) (n : ℕ) (prices : List Price) : ℕ :=
  prices.foldl (fun n price => if deviatesFrom base price then n + 1 else 0) n

theorem inARow_append (base : Price) (n : ℕ) (prices : List Price) (price : Price) :
    inARow base n (prices ++ [price]) =
      if deviatesFrom base price then inARow base n prices + 1 else 0 := by
  unfold inARow
  rw [List.foldl_append, List.foldl_cons, List.foldl_nil]

/-- The price that is taken deviates. -/
def TakesOff (base : Price) (r : ℕ × Option Price) : Prop :=
  ∃ price, r.2 = some price ∧ deviatesFrom base price

/-- The count is that of the prices in a row, and stays below three; the price that is taken
deviates once they were three. -/
structure Gated (base : Price) (inARow : ℕ) (r : ℕ × Option Price) : Prop where
  below : r.1 < 3
  count : inARow < 3 → r.1 = inARow
  off : TakesOff base r ↔ 3 ≤ inARow

theorem Gated.next {c : CachedPrice} {n : ℕ} {r : ℕ × Option Price}
    (h : Gated c.data.price n r) (price : Price) :
    Gated c.data.price (if deviatesFrom c.data.price price then n + 1 else 0)
      (gate (some c) r price) := by
  unfold gate
  by_cases hdev : deviatesFrom c.data.price price
  · have hdeviates : deviates c price := hdev
    have hbelow := h.below
    dsimp only
    rw [if_pos hdev, if_pos hdeviates]
    by_cases hthird : 3 ≤ r.1 + 1
    · -- it is the third in a row, or a later one
      rw [if_pos hthird]
      have hn : 3 ≤ n + 1 := by
        by_contra hn
        have hcount := h.count (by omega)
        omega
      exact ⟨by simp, fun hlt => by omega, fun _ => hn, fun _ => ⟨price, rfl, hdev⟩⟩
    · rw [if_neg hthird]
      have hn : 3 ≤ n + 1 ↔ 3 ≤ n := by
        refine ⟨fun hle => ?_, fun hle => by omega⟩
        by_contra hn
        have hcount := h.count (by omega)
        omega
      refine ⟨by dsimp only; omega, fun hlt => ?_, Iff.trans ?_ hn.symm⟩
      · rw [h.count (by omega)]
      · exact h.off
  · have hclose : ¬ deviates c price := hdev
    dsimp only
    rw [if_neg hdev, if_neg hclose]
    refine ⟨by simp, fun _ => rfl, ?_, fun hle => by omega⟩
    rintro ⟨p, hp, hoff⟩
    obtain rfl := Option.some.inj hp
    exact absurd hoff hdev

/-- **What the gate takes**: a price that deviates, once three of them came in a row. -/
theorem gated (c : CachedPrice) {n : ℕ} (hn : n < 3) (prices : List Price) :
    Gated c.data.price (inARow c.data.price n prices) (prices.foldl (gate (some c)) (n, none)) := by
  induction prices using List.reverseRecOn with
  | nil =>
    refine ⟨hn, fun _ => rfl, ?_, fun hle => absurd hn (Nat.not_lt.mpr hle)⟩
    rintro ⟨price, hprice, -⟩
    cases hprice
  | append_singleton prices price ih =>
    rw [inARow_append, List.foldl_append, List.foldl_cons, List.foldl_nil]
    exact ih.next price

/-- Without a cached price the last one is taken. -/
theorem gate_none (prices : List Price) (n : ℕ) :
    prices.foldl (gate none) (n, none) = (n, prices.getLast?) := by
  induction prices using List.reverseRecOn with
  | nil => rfl
  | append_singleton prices price ih =>
    rw [List.foldl_append, ih, List.getLast?_concat]
    rfl

/-! ## One call -/

/-- The markets that a call asks the API for. -/
def uncached (s : PriceService) (symbols : List String) (now : ℚ) : List String :=
  (symbols.map toUpperCase).filter fun sym => (s.unexpired now sym).isNone

/-- The entries that a request brings: none where it is not let through, or fails. -/
def brought (cb : ServiceCircuitBreaker) (a : PriceAnswer) : List (String × ApiPrice) :=
  if (cb.allowRequest a.now).2 then a.allPrices.getD [] else []

/-- An eviction only removes. -/
theorem cached_of_evict {s : PriceService} {sym : String} {c : CachedPrice}
    (h : s.evict.cache.get? sym = some c) : s.cache.get? sym = some c := by
  have hdeletes : ∀ (l : List (String × CachedPrice)) (m : OrderedMap String CachedPrice),
      (l.foldl (fun m e => m.delete e.1) m).get? sym = some c → m.get? sym = some c := by
    intro l
    induction l with
    | nil => exact fun m h => h
    | cons e l ih =>
      intro m h
      exact (OrderedMap.get?_delete_eq_some.mp (ih _ h)).2
  unfold evict at h
  split at h
  · dsimp only at h
    exact hdeletes _ _ h
  · exact h

/-- A price that is kept is cached. -/
theorem cached_of_kept {s : PriceService} {symbols : List String} {now : ℚ} {sym : String}
    {tp : TokenPrice} (h : s.kept symbols now sym = some tp) :
    ∃ c, s.cache.get? sym = some c ∧ c.data = tp := by
  obtain ⟨-, h⟩ := Option.ite_none_right_eq_some.mp h
  rcases Option.or_eq_some_iff.mp h with h | ⟨-, h⟩
  · unfold unexpired at h
    cases hc : s.cache.get? sym with
    | none =>
      rw [hc] at h
      cases h
    | some c =>
      rw [hc] at h
      obtain ⟨-, h⟩ := Option.ite_none_right_eq_some.mp h
      exact ⟨c, rfl, Option.some.inj h⟩
  · obtain ⟨c, hc, hdata⟩ := Option.map_eq_some_iff.mp h
    exact ⟨c, cached_of_evict hc, hdata⟩

theorem market_fetchFromFlashApi (s : PriceService) (cb : ServiceCircuitBreaker)
    (symbols : List String) (a : PriceAnswer) (sym : String) :
    market ((s.fetchFromFlashApi cb symbols a).1, (s.fetchFromFlashApi cb symbols a).2.2) sym =
      (offers symbols (brought cb a) sym).foldl (gate (s.cache.get? sym))
        (s.rejectCount sym, none) := by
  have hnone : offers symbols [] sym = [] := by
    unfold offers
    exact ite_self _
  unfold fetchFromFlashApi brought
  rw [← Prod.eta (cb.allowRequest a.now)]
  cases (cb.allowRequest a.now).2 with
  | false =>
    dsimp only
    rw [if_neg Bool.false_ne_true, hnone]
    rfl
  | true =>
    dsimp only
    rw [if_pos rfl]
    cases a.allPrices with
    | none =>
      rw [Option.getD_none, hnone]
      rfl
    | some entries => exact market_foldl_takeEntry symbols a sym entries (s, [])

/-- **What a call does to a market**: the prices offered for it go through the gate. -/
theorem market_getPrices (s : PriceService) (cb : ServiceCircuitBreaker) (symbols : List String)
    (a : PriceAnswer) (sym : String) :
    market ((s.getPrices cb symbols a).service, (s.getPrices cb symbols a).answered) sym =
      (offers (s.uncached symbols a.now) (brought cb a) sym).foldl
        (gate (s.evict.cache.get? sym)) (s.rejectCount sym, none) := by
  unfold getPrices
  dsimp only
  split
  · next hall =>
    have hnone : s.uncached symbols a.now = [] := hall
    rw [hnone]
    unfold offers
    rw [if_neg List.not_mem_nil]
    rfl
  · have hmarket := market_fetchFromFlashApi s.evict cb (s.uncached symbols a.now) a sym
    rw [evict_rejectCount] at hmarket
    exact hmarket

/-- What a call caches: nothing, or the prices of the answer. -/
theorem cache_getPrices (s : PriceService) (cb : ServiceCircuitBreaker) (symbols : List String)
    (a : PriceAnswer) :
    ((s.getPrices cb symbols a).answered = [] ∧
      (s.getPrices cb symbols a).service.cache = s.cache) ∨
    (s.getPrices cb symbols a).service.cache = (s.getPrices cb symbols a).answered.foldl
      (fun m tp => m.set tp.symbol { data := tp, expiry := a.now + cacheTtlMs }) s.evict.cache := by
  unfold getPrices
  dsimp only
  split
  · exact .inl ⟨rfl, rfl⟩
  · right
    dsimp only
    rw [fetchFromFlashApi_cache]

/-- What is cached under a market afterwards has the price that was taken, or was cached before
and none was taken. -/
theorem cached_of_getPrices {s : PriceService} {cb : ServiceCircuitBreaker}
    {symbols : List String} {a : PriceAnswer} {sym : String} {c : CachedPrice}
    (h : (s.getPrices cb symbols a).service.cache.get? sym = some c) :
    (taken (s.getPrices cb symbols a).answered sym).or ((s.cache.get? sym).map (·.data.price)) =
      some c.data.price := by
  rcases cache_getPrices s cb symbols a with ⟨hnone, hcache⟩ | hcache
  · rw [hcache] at h
    rw [hnone, h]
    rfl
  · rw [hcache, OrderedMap.get?_foldl_set_last TokenPrice.symbol] at h
    unfold taken latest
    cases hlast : (s.getPrices cb symbols a).answered.reverse.find? fun tp => tp.symbol = sym with
    | some tp =>
      rw [hlast] at h
      obtain rfl := Option.some.inj h
      rfl
    | none =>
      rw [hlast] at h
      rw [cached_of_evict h]
      rfl

/-! ## The machine -/

/-- A call of `getPrices`, with the breaker it finds: other users have it too. -/
structure PriceCall where
  breaker : ServiceCircuitBreaker
  symbols : List String
  answer : PriceAnswer

/-- A fetch: the markets that were asked for, what the request brought, what was taken of it,
and what was served. -/
structure PriceFetch where
  asked : List String
  entries : List (String × ApiPrice)
  answered : List TokenPrice
  prices : OrderedMap String TokenPrice

/-- What a call fetches. -/
def fetch (s : PriceService) (call : PriceCall) : PriceFetch :=
  let r := s.getPrices call.breaker call.symbols call.answer
  { asked := s.uncached call.symbols call.answer.now
    entries := brought call.breaker call.answer
    answered := r.answered
    prices := r.prices }

end PriceService

/-- The price service, call after call. -/
def priceFetches : Machine PriceService PriceCall PriceFetch where
  init := {}
  step s call :=
    some ((s.getPrices call.breaker call.symbols call.answer).service, [s.fetch call])

namespace PriceService

/-! ## The property -/

/-- What the fetches of a market have shown: the price that was accepted last, and how many of
them in a row, up to now, brought a price that deviates from the one accepted before. -/
structure PriceLog where
  accepted : Option Price
  deviating : ℕ

/-- One fetch more. -/
def PriceLog.next (sym : String) (log : PriceLog) (f : PriceFetch) : PriceLog :=
  if sym ∈ f.asked then
    { accepted := (taken f.answered sym).or log.accepted
      deviating :=
        if (offered f.entries sym).any fun price =>
            log.accepted.any fun base => deviatesFrom base price then
          log.deviating + 1
        else 0 }
  else log

/-- What the fetches up to now have shown of a market. -/
def priceLog (sym : String) (h : List PriceFetch) : PriceLog :=
  h.foldl (PriceLog.next sym) { accepted := none, deviating := 0 }

/-- A price that is served and deviates from the one accepted last comes after two fetches of
its market in a row that brought such prices too. -/
def Confirmed (h : List PriceFetch) (f : PriceFetch) : Prop :=
  ∀ sym base price, (priceLog sym h).accepted = some base →
    (f.prices.get? sym).map TokenPrice.price = some price → deviatesFrom base price →
    2 ≤ (priceLog sym h).deviating

/-- Of the prices offered for a market one that deviates is let through: as the third in a row,
counted on from the fetches before, or as the last one where no price is cached any more. -/
def LetsOff (s : PriceService) (sym : String) (base : Price) (prices : List Price) : Prop :=
  match s.evict.cache.get? sym with
  | some _ => 3 ≤ inARow base (s.rejectCount sym) prices
  | none => ∃ price, prices.getLast? = some price ∧ deviatesFrom base price

/-- The call lets no price through that deviates before two fetches have brought such prices. -/
def NoneEarly (s : PriceService) (h : List PriceFetch) (call : PriceCall) : Prop :=
  ∀ sym base, sym ∈ s.uncached call.symbols call.answer.now →
    (priceLog sym h).accepted = some base →
    s.LetsOff sym base (offered (brought call.breaker call.answer) sym) →
    2 ≤ (priceLog sym h).deviating

/-! ## The invariant -/

/-- A cached price is the one accepted last, and the counts stay below three. -/
structure Baselines (s : PriceService) (h : List PriceFetch) : Prop where
  cached : ∀ sym c, s.cache.get? sym = some c → (priceLog sym h).accepted = some c.data.price
  count : ∀ sym, s.rejectCount sym < 3

theorem Baselines.init : Baselines priceFetches.init [] where
  cached sym c hc := by cases hc
  count _ := Nat.succ_pos 2

theorem priceLog_snoc (sym : String) (h : List PriceFetch) (f : PriceFetch) :
    priceLog sym (h ++ [f]) = (priceLog sym h).next sym f := by
  unfold priceLog
  rw [List.foldl_append]
  rfl

variable {s : PriceService} {h : List PriceFetch} {call : PriceCall} {sym : String} {base : Price}

theorem uncached_of_taken {price : Price}
    (htaken : taken (s.fetch call).answered sym = some price) :
    sym ∈ s.uncached call.symbols call.answer.now := by
  obtain ⟨tp, hlatest, -⟩ := Option.map_eq_some_iff.mp htaken
  obtain ⟨htp, rfl⟩ := mem_of_latest hlatest
  obtain ⟨hupper, hexpired, -⟩ := price_answered_iff.mp ⟨tp, htp, rfl⟩
  exact List.mem_filter.mpr ⟨hupper, Option.isNone_iff_eq_none.mpr hexpired⟩

/-- The price that was accepted last, once a fetch is over. -/
theorem accepted_fetch : (priceLog sym (h ++ [s.fetch call])).accepted =
    (taken (s.fetch call).answered sym).or (priceLog sym h).accepted := by
  rw [priceLog_snoc]
  unfold PriceLog.next
  split
  · rfl
  · next hasked =>
    cases htaken : taken (s.fetch call).answered sym with
    | none => rfl
    | some price => exact absurd (uncached_of_taken htaken) hasked

/-- The count of a market after a call, and the price taken. -/
theorem market_fetch (hasked : sym ∈ s.uncached call.symbols call.answer.now) :
    market ((s.getPrices call.breaker call.symbols call.answer).service,
        (s.fetch call).answered) sym =
      (offered (brought call.breaker call.answer) sym).foldl (gate (s.evict.cache.get? sym))
        (s.rejectCount sym, none) := by
  have hmarket := market_getPrices s call.breaker call.symbols call.answer sym
  unfold offers at hmarket
  rw [if_pos hasked] at hmarket
  exact hmarket

/-- A price that deviates is taken exactly when one is let through. -/
theorem takesOff_iff (hkept : Baselines s h)
    (hasked : sym ∈ s.uncached call.symbols call.answer.now)
    (hbase : (priceLog sym h).accepted = some base) :
    (∃ price, taken (s.fetch call).answered sym = some price ∧ deviatesFrom base price) ↔
      s.LetsOff sym base (offered (brought call.breaker call.answer) sym) := by
  have hmarket := market_fetch hasked
  unfold LetsOff
  cases hcached : s.evict.cache.get? sym with
  | none =>
    rw [hcached, gate_none] at hmarket
    have htaken : taken (s.fetch call).answered sym = _ := congrArg Prod.snd hmarket
    rw [htaken]
  | some c =>
    obtain rfl := Option.some.inj ((hkept.cached sym c (cached_of_evict hcached)).symm.trans hbase)
    have hgated := gated c (hkept.count sym) (offered (brought call.breaker call.answer) sym)
    rw [hcached] at hmarket
    rw [← hmarket] at hgated
    exact hgated.off

/-- The invariant goes along with every call. -/
theorem Baselines.next (hkept : Baselines s h) :
    Baselines (s.getPrices call.breaker call.symbols call.answer).service
      (h ++ [s.fetch call]) := by
  refine ⟨fun sym c hc => ?_, fun sym => ?_⟩
  · have hafter := cached_of_getPrices hc
    rw [accepted_fetch]
    cases hcached : s.cache.get? sym with
    | none =>
      rw [hcached, Option.map_none, Option.or_none] at hafter
      show (taken (s.getPrices _ _ _).answered sym).or _ = _
      rw [hafter, Option.some_or]
    | some c' =>
      rw [hkept.cached sym c' hcached]
      rw [hcached] at hafter
      exact hafter
  · have hmarket := market_getPrices s call.breaker call.symbols call.answer sym
    have hcount : (s.getPrices call.breaker call.symbols call.answer).service.rejectCount sym = _ :=
      congrArg Prod.fst hmarket
    rw [hcount]
    cases hcached : s.evict.cache.get? sym with
    | none =>
      rw [gate_none]
      exact hkept.count sym
    | some c => exact (gated c (hkept.count sym) _).below

theorem served_of_taken {price : Price}
    (htaken : taken (s.fetch call).answered sym = some price) :
    ((s.fetch call).prices.get? sym).map TokenPrice.price = some price := by
  obtain ⟨tp, hlatest, rfl⟩ := Option.map_eq_some_iff.mp htaken
  have hfound : (s.fetch call).prices.get? sym = _ :=
    get?_getPrices_latest s call.breaker call.symbols call.answer sym
  rw [hfound]
  show ((latest (s.fetch call).answered sym).or _).map _ = _
  rw [hlatest]
  rfl

/-- What is served is what was taken, or else a price that does not deviate. -/
theorem taken_of_served (hkept : Baselines s h) {price : Price}
    (hbase : (priceLog sym h).accepted = some base)
    (hserved : ((s.fetch call).prices.get? sym).map TokenPrice.price = some price)
    (hoff : deviatesFrom base price) : taken (s.fetch call).answered sym = some price := by
  have hfound : (s.fetch call).prices.get? sym =
      (latest (s.fetch call).answered sym).or (s.kept call.symbols call.answer.now sym) :=
    get?_getPrices_latest s call.breaker call.symbols call.answer sym
  rw [hfound] at hserved
  unfold taken
  cases hlatest : latest (s.fetch call).answered sym with
  | some tp =>
    rw [hlatest] at hserved
    exact hserved
  | none =>
    rw [hlatest, Option.none_or] at hserved
    obtain ⟨tp, hkeep, rfl⟩ := Option.map_eq_some_iff.mp hserved
    obtain ⟨c, hc, rfl⟩ := cached_of_kept hkeep
    obtain rfl := Option.some.inj ((hkept.cached sym c hc).symm.trans hbase)
    exact absurd hoff (not_deviatesFrom_self _)

/-! ## Runs -/

/-- **Every price that is served and deviates comes after two fetches in a row that brought such
prices, if and only if no call lets one through early.** -/
theorem confirmed_iff (calls : List PriceCall) :
    priceFetches.Always (fun _ h => Each Confirmed h) priceFetches.init [] calls ↔
      priceFetches.Along NoneEarly priceFetches.init [] calls := by
  refine Machine.always_iff_along_of_step (I := fun s h => Each Confirmed h ∧ Baselines s h)
    (fun hI => hI.1) ?_ ⟨Each.nil, Baselines.init⟩ calls
  intro s h call s' es hI hs
  obtain ⟨hconfirmed, hkept⟩ := hI
  obtain ⟨rfl, rfl⟩ := Machine.some_pair hs
  by_cases hnone : NoneEarly s h call
  · refine .inl ⟨hnone, hconfirmed.snoc ?_, hkept.next⟩
    intro sym base price hbase hserved hoff
    have htaken := taken_of_served hkept hbase hserved hoff
    have hasked := uncached_of_taken htaken
    exact hnone sym base hasked hbase
      ((takesOff_iff hkept hasked hbase).mp ⟨price, htaken, hoff⟩)
  · refine .inr ⟨hnone, fun hafter => hnone ?_⟩
    intro sym base hasked hbase hoff
    obtain ⟨price, htaken, hoff⟩ := (takesOff_iff hkept hasked hbase).mpr hoff
    exact Each.last hafter sym base price hbase (served_of_taken htaken) hoff

/-! ## Three entries of one answer -/

/-- A call for SOL, answered at once with some prices of it. -/
def asksSol (now : ℚ) (prices : List ℚ) : PriceCall where
  breaker := { config := breakerConfig }
  symbols := ["SOL"]
  answer := {
    now
    answeredAt := now
    allPrices := some (prices.map fun q => ("SOL", { priceUi := .finite q, scaled := .finite 0 }))
    change24h := fun _ => 0 }

/-- What a run of two calls says of the second one. -/
theorem confirmed_of_second {s : PriceService} {a b : PriceCall}
    (hall : priceFetches.Always (fun _ h => Each Confirmed h) s [] [a, b]) :
    Confirmed [s.fetch a] ((s.getPrices a.breaker a.symbols a.answer).service.fetch b) := by
  have hboth : Each Confirmed _ := (hall.2 _ _ rfl).2 _ _ rfl
  exact Each.last hboth

/-- After a price of 100 one answer has 200 three times. -/
theorem served_at_once :
    ¬ priceFetches.Always (fun _ h => Each Confirmed h) priceFetches.init []
      [asksSol 0 [100], asksSol 10000 [200, 200, 200]] := by
  intro hall
  have hsecond := confirmed_of_second hall "SOL" ⟨100, by norm_num⟩ ⟨200, by norm_num⟩
    (by decide +kernel) (by decide +kernel) (by decide +kernel)
  exact absurd hsecond (by decide +kernel)

end PriceService

end FlashEdge
